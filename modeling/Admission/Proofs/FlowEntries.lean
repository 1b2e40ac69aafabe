import Admission.Proofs.Arguments
import Admission.Proofs.StatusText
import Admission.Simulation.Flow
import Mathlib.Data.Finset.Card
import Mathlib.Data.Nat.ModEq

/-!
# Flows and their entries

A flow knows its entry by its number alone: the number is reduced to one of a few residues, the
residue is cut into three bytes, and these are written in digits with points between them. Only the
first of the three steps forgets anything:

> three bytes hold every residue there can be, and a point never stands in a row of digits.

So flows share an entry exactly if their numbers agree modulo the number of entries
(`Simulation.flowEntry_eq_iff`), and how many entries are in use is a matter of counting residues.
What is reduced, and by what, depends on the options; those that come from arguments keep both
divisors within their bounds (`Simulation.Options.inRange_of_parse`).
-/

set_option autoImplicit false

namespace Admission.Simulation

/-! ## Addresses -/

/-- A number of three bytes is told by them. -/
theorem eq_of_octet_eq {m n : Nat} (hm : m < 2 ^ 24) (hn : n < 2 ^ 24)
    (h : ∀ place < 3, octet m place = octet n place) : m = n := by
  have h0 : m % 256 = n % 256 := by simpa [octet] using h 0 (by decide)
  have h1 : m / 256 % 256 = n / 256 % 256 := by simpa [octet] using h 1 (by decide)
  have h2 : m / 65536 % 256 = n / 65536 % 256 := by simpa [octet] using h 2 (by decide)
  omega

/-- A number in digits is told from what follows by a character that is no digit. -/
theorem toDigits_append_inj {m n : Nat} {stop : Char} {x y : List Char}
    (hstop : stop.isDigit = false)
    (h : Nat.toDigits 10 m ++ stop :: x = Nat.toDigits 10 n ++ stop :: y) : m = n ∧ x = y := by
  have hdigits : ∀ k, stop ∉ Nat.toDigits 10 k := by
    intro k hmem
    rw [Nat.isDigit_of_mem_toDigits (by decide) (by decide) hmem] at hstop
    cases hstop
  obtain ⟨hmn, hxy⟩ := Text.append_inj_of_stop (hdigits m) (hdigits n) h
  exact ⟨Span.toDigits_injective hmn, hxy⟩

theorem toList_remoteAddress (n : Nat) :
    (remoteAddress n).toList = "10.".toList ++ (Nat.toDigits 10 (octet n 2) ++
      '.' :: (Nat.toDigits 10 (octet n 1) ++ '.' :: (Nat.toDigits 10 (octet n 0) ++
        ':' :: "6881".toList))) := by
  simp [remoteAddress]

/-- **Different numbers of three bytes are different addresses.** -/
theorem eq_of_remoteAddress_eq {m n : Nat} (hm : m < 2 ^ 24) (hn : n < 2 ^ 24)
    (h : remoteAddress m = remoteAddress n) : m = n := by
  have hchars := congrArg String.toList h
  rw [toList_remoteAddress, toList_remoteAddress] at hchars
  obtain ⟨h2, hchars⟩ := toDigits_append_inj (by decide) (List.append_cancel_left hchars)
  obtain ⟨h1, hchars⟩ := toDigits_append_inj (by decide) hchars
  obtain ⟨h0, -⟩ := toDigits_append_inj (by decide) hchars
  refine eq_of_octet_eq hm hn fun place hplace => ?_
  interval_cases place
  · exact h0
  · exact h1
  · exact h2

/-! ## Entries -/

section Entries

variable {d : Nat}

theorem flowEntry_mod (i d : Nat) : flowEntry (i % d) d = flowEntry i d := by
  rw [flowEntry, flowEntry, Nat.mod_mod]

/-- **Flows share an entry exactly if their numbers agree modulo the number of entries.** -/
theorem flowEntry_eq_iff (hpos : 1 ≤ d) (hle : d ≤ 2 ^ 24) (i j : Nat) :
    flowEntry i d = flowEntry j d ↔ i % d = j % d := by
  have hlt : ∀ k, k % d < 2 ^ 24 := fun k => (Nat.mod_lt k hpos).trans_le hle
  constructor
  · intro h
    exact eq_of_remoteAddress_eq (hlt i) (hlt j) (congrArg Entry.remoteAddr h)
  · intro h
    rw [← flowEntry_mod i, h, flowEntry_mod]

/-- The entries that the first flows ask for. -/
def entriesOfFirst (flows d : Nat) : Finset Entry :=
  (Finset.range flows).image fun flow => flowEntry flow d

/-- As soon as every residue has had its turn, no flow brings a new entry. -/
theorem entriesOfFirst_min (hpos : 1 ≤ d) (flows : Nat) :
    entriesOfFirst flows d = entriesOfFirst (min flows d) d := by
  refine Finset.Subset.antisymm ?_ ?_
  · intro e he
    obtain ⟨flow, hflow, rfl⟩ := Finset.mem_image.mp he
    have hlt := Finset.mem_range.mp hflow
    have hmod : flow % d < min flows d :=
      lt_min ((Nat.mod_le flow d).trans_lt hlt) (Nat.mod_lt flow hpos)
    exact Finset.mem_image.mpr ⟨flow % d, Finset.mem_range.mpr hmod, flowEntry_mod flow d⟩
  · exact Finset.image_subset_image (Finset.range_mono (min_le_left flows d))

theorem card_entriesOfFirst (hpos : 1 ≤ d) (hle : d ≤ 2 ^ 24) (flows : Nat) :
    (entriesOfFirst flows d).card = min flows d := by
  rw [entriesOfFirst_min hpos, entriesOfFirst, Finset.card_image_of_injOn, Finset.card_range]
  intro i hi j hj h
  have hsmall : ∀ k ∈ Finset.range (min flows d), k % d = k := fun k hk =>
    Nat.mod_eq_of_lt ((Finset.mem_range.mp hk).trans_le (min_le_right flows d))
  rw [← hsmall i hi, ← hsmall j hj]
  exact (flowEntry_eq_iff hpos hle i j).mp h

end Entries

/-! ## Divisors -/

/-- A priority holds every class number that is small enough. -/
theorem value_flowPriority {classes : Nat} (hpos : 1 ≤ classes) (hle : classes ≤ maxPriorities)
    (flow : Nat) : (flowPriority flow classes).value = (flow % classes : Nat) := by
  have hlt : flow % classes < 1024 := (Nat.mod_lt flow hpos).trans_le hle
  have hbmod : Int.bmod ((flow % classes : Nat) : Int) 4294967296 = (flow % classes : Nat) :=
    Int.bmod_eq_of_le (by omega) (by omega)
  unfold flowPriority Priority.ofClass
  dsimp only
  rw [hbmod]

theorem accepts_of_lastValue {groups : List Group} (h : ∀ g ∈ groups, g.IsValid) {flag : Flag}
    {value : String} (hvalue : lastValue flag groups = some value) : flag.Accepts value := by
  have hmem : value ∈ groups.filterMap (Group.value? flag) := List.mem_of_getLast? hvalue
  obtain ⟨g, hg, hgvalue⟩ := List.mem_filterMap.mp hmem
  cases g with
  | json => cases hgvalue
  | setting flag' value' =>
    obtain ⟨rfl, hvalue'⟩ := Option.ite_none_right_eq_some.mp hgvalue
    obtain rfl := Option.some.inj hvalue'
    exact h _ hg

/-- What holds of an option, and of all that its flag accepts, holds of it when overridden. -/
theorem named_of_accepts {groups : List Group} (h : ∀ g ∈ groups, g.IsValid) (flag : Flag)
    {α : Type} (P : α → Prop) {read : String → α} {other : α} (hother : P other)
    (hread : ∀ value, flag.Accepts value → P (read value)) :
    P (((lastValue flag groups).map read).getD other) := by
  cases hvalue : lastValue flag groups with
  | none => exact hother
  | some value => exact hread value (accepts_of_lastValue h hvalue)

namespace Options

theorem isMillis_numberOf {value : String}
    (h : ∃ n, Decimal.IsNumeral value.toList n ∧ n < UInt64.size) :
    IsMillis (.ofMillis (numberOf value)) := by
  obtain ⟨n, hn, hsize⟩ := h
  rw [numberOf_eq hn]
  exact ⟨n, hsize, rfl⟩

/-- **Good values keep options in range.** -/
theorem InRange.override {o : Options} (h : o.InRange) {groups : List Group}
    (hgroups : ∀ g ∈ groups, g.IsValid) : (o.override groups).InRange where
  flows := by
    refine named_of_accepts hgroups .flows (· < UInt64.size) h.flows ?_
    rintro value ⟨n, hn, hsize⟩
    rwa [numberOf_eq hn]
  distinct := by
    refine named_of_accepts hgroups .distinct (∀ n ∈ ·, 1 ≤ n ∧ n ≤ maxDistinct) h.distinct ?_
    rintro value ⟨n, hn, hrange⟩ m ⟨rfl⟩
    rwa [numberOf_eq hn]
  linger := by
    refine named_of_accepts hgroups .timeout (∀ s ∈ ·, IsMillis s) h.linger ?_
    rintro value haccepts s ⟨rfl⟩
    exact isMillis_numberOf haccepts
  hold := named_of_accepts hgroups .hold IsMillis h.hold fun _ => isMillis_numberOf
  deadline := by
    refine named_of_accepts hgroups .deadline (∀ s ∈ ·, IsMillis s) h.deadline ?_
    rintro value haccepts s ⟨rfl⟩
    exact isMillis_numberOf haccepts
  priorities := by
    refine named_of_accepts hgroups .priorities (fun n => 1 ≤ n ∧ n ≤ maxPriorities) h.priorities ?_
    rintro value ⟨n, hn, hrange⟩
    rwa [numberOf_eq hn]

theorem inRange_standard : standard.InRange where
  flows := by decide
  distinct := by simp [standard]
  linger := by simp [standard]
  hold := ⟨10, by decide, rfl⟩
  deadline := by simp [standard]
  priorities := by decide

/-- **Options that come from arguments are in range.** -/
theorem inRange_of_parse {arguments : List String} {o : Options}
    (h : parse arguments = .ok o) : o.InRange := by
  obtain ⟨groups, -, hgroups, rfl⟩ := parse_eq_ok_iff.mp h
  exact inRange_standard.override hgroups

/-- The number of distinct entries is good for a divisor, whether it was given or not, and whatever
the number of flows is. -/
theorem InRange.distinctCount {o : Options} (h : o.InRange) (flows : Nat) :
    1 ≤ ({ o with flows := flows } : Options).distinctCount ∧
      ({ o with flows := flows } : Options).distinctCount ≤ 2 ^ 24 := by
  rw [Options.distinctCount]
  cases hdistinct : o.distinct with
  | none =>
    refine ⟨le_max_left _ _, max_le (by decide) ?_⟩
    exact min_le_right flows maxDistinct
  | some n => exact h.distinct n hdistinct

end Options

/-- **Flows are mapped faithfully onto entries.** Whatever arguments are accepted and however many
flows there are, the number of entries and that of the classes are divisors within their bounds, a
class is a priority as it is, and two flows share an entry exactly if their numbers agree modulo the
number of entries. So the first flows use as many entries as there are flows, up to that number. -/
theorem flows_agree_modulo_distinct {arguments : List String} {o : Options}
    (h : Options.parse arguments = .ok o) (flows : Nat) :
    let d := ({ o with flows := flows } : Options).distinctCount
    (1 ≤ d ∧ d ≤ 2 ^ 24) ∧ (1 ≤ o.priorities ∧ o.priorities ≤ 1024) ∧
      (∀ i, (flowPriority i o.priorities).value = (i % o.priorities : Nat)) ∧
      (∀ i, flowEntry? i d = .ok (flowEntry i d)) ∧
      (∀ i j, flowEntry i d = flowEntry j d ↔ i ≡ j [MOD d]) ∧
      ∀ n, (entriesOfFirst n d).card = min n d := by
  intro d
  have hrange := Options.inRange_of_parse h
  obtain ⟨hpos, hle⟩ := hrange.distinctCount flows
  obtain ⟨hclasses, hfew⟩ := hrange.priorities
  refine ⟨⟨hpos, hle⟩, ⟨hclasses, hfew⟩, ?_, ?_, ?_, ?_⟩
  · exact value_flowPriority hclasses hfew
  · intro i
    exact if_neg (Nat.one_le_iff_ne_zero.mp hpos)
  · exact flowEntry_eq_iff hpos hle
  · exact card_entriesOfFirst hpos hle

/-- Six flows share four entries, the last two with the first two. -/
theorem flows_agree_modulo_distinct_four :
    ∃ o, Options.parse ["--flows", "6", "--distinct", "4"] = .ok o ∧
      flowEntry 5 o.distinctCount = flowEntry 1 o.distinctCount ∧
      flowEntry 5 o.distinctCount ≠ flowEntry 2 o.distinctCount ∧
      (entriesOfFirst o.flows o.distinctCount).card = 4 := by
  obtain ⟨o, harguments, hflows, hdistinct⟩ : ∃ o,
      Options.parse ["--flows", "6", "--distinct", "4"] = .ok o ∧ o.flows = 6 ∧
        o.distinctCount = 4 := ⟨_, rfl, rfl, rfl⟩
  obtain ⟨-, -, -, -, hshare, hcount⟩ := flows_agree_modulo_distinct harguments o.flows
  have hother : ¬ 5 ≡ 2 [MOD o.distinctCount] := by
    rw [hdistinct]
    decide
  refine ⟨o, harguments, (hshare 5 1).mpr ?_, fun h => hother ((hshare 5 2).mp h), ?_⟩
  · rw [hdistinct]
    rfl
  · rw [hcount, hdistinct, hflows]
    rfl

end Admission.Simulation
