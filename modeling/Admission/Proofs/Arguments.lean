import Admission.Proofs.Numerals
import Admission.Simulation.Options

/-!
# Arguments come in groups

The reader of the arguments walks along the list, and every part of what it does depends on where it
has come to. Seen from outside there is no walk:

> the first argument of a group tells how long the group is, so a list falls into groups in one way.

A group is the flag without a value, or a flag and its value, whatever that looks like
(`Simulation.Group`). Lists that consist of groups with good values are read, and what they are read
as is told by the last group that names an option (`Options.override`). All others are groups up to
the first place that is wrong, and the error is told by that place (`Simulation.Offends`).
-/

set_option autoImplicit false

namespace Admission.Simulation

/-- Arguments that belong together. -/
inductive Group where
  /-- The flag that takes no value. -/
  | json
  | setting (flag : Flag) (value : String)
deriving DecidableEq

/-- The number of a numeral. -/
def numberOf (value : String) : Nat := Decimal.valueOf (Decimal.unsigned value.toList)

/-- Is the number good for a flag that takes one? -/
def Flag.Takes (flag : Flag) (n : Nat) : Prop :=
  match flag with
  | .distinct => 1 ≤ n ∧ n ≤ maxDistinct
  | .priorities => 1 ≤ n ∧ n ≤ maxPriorities
  | _ => n < UInt64.size

/-- Is the value good for the flag? -/
def Flag.Accepts (flag : Flag) (value : String) : Prop :=
  match flag with
  | .maxEntries => ∃ k, Capacity.parse? value = some k
  | flag => ∃ n, Decimal.IsNumeral value.toList n ∧ flag.Takes n

/-- What is wrong with a value. -/
inductive Flag.Rejects (value : String) : Flag → UsageError → Prop
  | notANumber {flag : Flag} (hflag : flag ≠ .maxEntries)
      (h : ∀ n < UInt64.size, ¬ Decimal.IsNumeral value.toList n) :
      Rejects value flag (.notANumber flag value)
  | distinct {n : Nat} (hn : Decimal.IsNumeral value.toList n) (hsize : n < UInt64.size)
      (h : ¬ Flag.distinct.Takes n) : Rejects value .distinct .distinctOutOfRange
  | priorities {n : Nat} (hn : Decimal.IsNumeral value.toList n) (hsize : n < UInt64.size)
      (h : ¬ Flag.priorities.Takes n) : Rejects value .priorities .prioritiesOutOfRange
  | capacity (h : Capacity.parse? value = none) : Rejects value .maxEntries (.notACapacity value)

namespace Group

def arguments : Group → List String
  | json => [jsonFlag]
  | setting flag value => [flag.text, value]

def IsValid : Group → Prop
  | json => True
  | setting flag value => flag.Accepts value

/-- The value that the group has for a flag. -/
def value? (flag : Flag) : Group → Option String
  | json => none
  | setting flag' value => if flag' = flag then some value else none

end Group

/-- The arguments of groups, one after the other. -/
def argumentsOf (groups : List Group) : List String := groups.flatMap Group.arguments

/-- The value in the last group that names a flag. -/
def lastValue (flag : Flag) (groups : List Group) : Option String :=
  (groups.filterMap (Group.value? flag)).getLast?

/-- What is wrong at the beginning of a list that does not begin with a good group. What comes later
plays no part. -/
inductive Offends : List String → UsageError → Prop
  | help {argument : String} (later : List String) (h : argument = "--help" ∨ argument = "-h") :
      Offends (argument :: later) .help
  | unknown {argument : String} (later : List String) (hjson : argument ≠ jsonFlag)
      (hflag : ∀ flag : Flag, argument ≠ flag.text)
      (hhelp : ¬ (argument = "--help" ∨ argument = "-h")) :
      Offends (argument :: later) (.unknown argument)
  | missingValue (flag : Flag) : Offends [flag.text] (.missingValue flag)
  | badValue {flag : Flag} {value : String} {e : UsageError} (later : List String)
      (h : flag.Rejects value e) : Offends (flag.text :: value :: later) e

namespace Options

/-- Other options, with each one that is named taken from the last group that names it. -/
def override (o : Options) (groups : List Group) : Options :=
  let named {α : Type} (flag : Flag) (read : String → α) (other : α) : α :=
    ((lastValue flag groups).map read).getD other
  { flows := named .flows numberOf o.flows
    distinct := named .distinct (fun v => some (numberOf v)) o.distinct
    capacity := named .maxEntries Capacity.parse? o.capacity
    linger := named .timeout (fun v => some (.ofMillis (numberOf v))) o.linger
    hold := named .hold (fun v => .ofMillis (numberOf v)) o.hold
    deadline := named .deadline (fun v => some (.ofMillis (numberOf v))) o.deadline
    priorities := named .priorities numberOf o.priorities
    json := o.json || decide (Group.json ∈ groups) }

end Options

/-! ## Values -/

variable {flag : Flag} {value : String} {n : Nat}

theorem numberOf_eq (h : Decimal.IsNumeral value.toList n) : numberOf value = n :=
  h.valueOf_unsigned

namespace Options

theorem readNumber_of_isNumeral (h : Decimal.IsNumeral value.toList n) (hsize : n < UInt64.size)
    (flag : Flag) : readNumber flag value = .ok n := by
  have hword : Decimal.readWord? value.toList = some (UInt64.ofNat n) := by
    rw [Decimal.readWord?_eq_some_iff, UInt64.toNat_ofNat_of_lt' hsize]
    exact h
  rw [readNumber, hword]
  exact congrArg Except.ok (UInt64.toNat_ofNat_of_lt' hsize)

theorem readNumber_of_not_isNumeral
    (h : ∀ n < UInt64.size, ¬ Decimal.IsNumeral value.toList n) (flag : Flag) :
    readNumber flag value = .error (.notANumber flag value) := by
  rw [readNumber, Decimal.readWord?_eq_none_iff.mpr h]

theorem readBetween_of_readNumber {bound : Nat} {e : UsageError}
    (h : readNumber flag value = .ok n) :
    readBetween flag bound e value =
      if 1 ≤ n ∧ n ≤ bound then .ok n else .error e := by
  rw [readBetween, h]
  by_cases hn : 1 ≤ n ∧ n ≤ bound
  · rw [if_pos hn]
    exact if_neg (by simp; omega)
  · rw [if_neg hn]
    exact if_pos (by simp; omega)

theorem lastValue_singleton (flag : Flag) (g : Group) :
    lastValue flag [g] = g.value? flag := by
  cases hg : g.value? flag <;> simp [lastValue, hg]

/-- **A good value sets the option that the flag names.** -/
theorem set_of_accepts (h : flag.Accepts value) (o : Options) :
    o.set flag value = .ok (o.override [.setting flag value]) := by
  have hnumeral : ∀ {n : Nat}, Decimal.IsNumeral value.toList n → n < UInt64.size →
      readNumber flag value = .ok (numberOf value) := by
    intro n hn hsize
    rw [numberOf_eq hn]
    exact readNumber_of_isNumeral hn hsize flag
  cases flag with
  | flows | timeout | hold | deadline =>
    obtain ⟨n, hn, hsize⟩ := h
    simp [set, readMillis, hnumeral hn hsize, override, lastValue_singleton, Group.value?,
      Except.map]
  | distinct | priorities =>
    obtain ⟨n, hn, hrange⟩ := h
    have hsize : n < UInt64.size := Nat.lt_of_le_of_lt hrange.2 (by decide)
    have hvalue := numberOf_eq hn
    rw [← hvalue] at hrange
    simp [set, readBetween_of_readNumber (hnumeral hn hsize), hrange.1, hrange.2, override,
      lastValue_singleton, Group.value?, Except.map]
  | maxEntries =>
    obtain ⟨k, hk⟩ := h
    simp [set, hk, override, lastValue_singleton, Group.value?]

/-- **A bad value is an error**, and there is one for each kind of badness. -/
theorem set_of_rejects {e : UsageError} (h : flag.Rejects value e) (o : Options) :
    o.set flag value = .error e := by
  cases h with
  | notANumber hflag hnone =>
    have hread := readNumber_of_not_isNumeral hnone flag
    cases flag with
    | maxEntries => exact absurd rfl hflag
    | flows | timeout | hold | deadline => simp [set, readMillis, hread, Except.map]
    | distinct | priorities => simp [set, readBetween, hread, Except.map]
  | @distinct n hn hsize hrange =>
    have hrange : ¬ (1 ≤ n ∧ n ≤ maxDistinct) := hrange
    rw [set, readBetween_of_readNumber (readNumber_of_isNumeral hn hsize _), if_neg hrange]
    rfl
  | @priorities n hn hsize hrange =>
    have hrange : ¬ (1 ≤ n ∧ n ≤ maxPriorities) := hrange
    rw [set, readBetween_of_readNumber (readNumber_of_isNumeral hn hsize _), if_neg hrange]
    rfl
  | capacity hnone => simp [set, hnone]

end Options

theorem accepts_or_rejects (flag : Flag) (value : String) :
    flag.Accepts value ∨ ∃ e, flag.Rejects value e := by
  by_cases hflag : flag = .maxEntries
  · subst hflag
    cases hk : Capacity.parse? value with
    | none => exact Or.inr ⟨_, .capacity hk⟩
    | some k => exact Or.inl ⟨k, hk⟩
  by_cases hnumeral : ∃ n < UInt64.size, Decimal.IsNumeral value.toList n
  · obtain ⟨n, hsize, hn⟩ := hnumeral
    cases flag with
    | maxEntries => exact absurd rfl hflag
    | flows | timeout | hold | deadline => exact Or.inl ⟨n, hn, hsize⟩
    | distinct =>
      by_cases hrange : Flag.distinct.Takes n
      · exact Or.inl ⟨n, hn, hrange⟩
      · exact Or.inr ⟨_, .distinct hn hsize hrange⟩
    | priorities =>
      by_cases hrange : Flag.priorities.Takes n
      · exact Or.inl ⟨n, hn, hrange⟩
      · exact Or.inr ⟨_, .priorities hn hsize hrange⟩
  · push Not at hnumeral
    exact Or.inr ⟨_, .notANumber hflag hnumeral⟩

/-! ## The last group counts -/

theorem lastValue_cons (flag : Flag) (g : Group) (groups : List Group) :
    lastValue flag (g :: groups) = (lastValue flag groups).or (g.value? flag) := by
  cases hg : g.value? flag with
  | none => simp [lastValue, hg]
  | some v => simp [lastValue, hg, List.getLast?_cons, Option.or_some]

theorem override_nil (o : Options) : o.override [] = o := by
  simp [Options.override, lastValue]

theorem override_cons (o : Options) (g : Group) (groups : List Group) :
    o.override (g :: groups) = (o.override [g]).override groups := by
  have hnamed : ∀ {α : Type} (flag : Flag) (read : String → α) (other : α),
      ((lastValue flag (g :: groups)).map read).getD other =
        ((lastValue flag groups).map read).getD (((lastValue flag [g]).map read).getD other) := by
    intro α flag read other
    rw [lastValue_cons, Options.lastValue_singleton]
    cases lastValue flag groups <;> rfl
  simp [Options.override, hnamed, Bool.or_assoc]

/-! ## Lists of arguments -/

theorem text_ne_jsonFlag (flag : Flag) : flag.text ≠ jsonFlag := by cases flag <;> decide

theorem ofText?_eq_none_iff {s : String} :
    Flag.ofText? s = none ↔ ∀ flag : Flag, s ≠ flag.text := by
  constructor
  · rintro hnone flag rfl
    rw [Flag.ofText?_text] at hnone
    cases hnone
  · intro h
    rw [Flag.ofText?, List.find?_eq_none]
    intro flag _
    simp [(h flag).symm]

theorem text_of_ofText? {s : String} (h : Flag.ofText? s = some flag) : flag.text = s := by
  simpa using List.find?_some h

theorem parseFrom_json (o : Options) (rest : List String) :
    o.parseFrom (jsonFlag :: rest) = (o.override [.json]).parseFrom rest := by
  rw [Options.parseFrom.eq_def]
  simp [Options.override, lastValue, Group.value?]

theorem parseFrom_setting (o : Options) (flag : Flag) (value : String) (rest : List String) :
    o.parseFrom (flag.text :: value :: rest) =
      match o.set flag value with
      | .ok o => o.parseFrom rest
      | .error e => .error e := by
  rw [Options.parseFrom.eq_def]
  cases hset : o.set flag value <;>
    simp only [text_ne_jsonFlag, if_false, Flag.ofText?_text, hset]

/-- **Groups are read one by one**, whatever comes after them. -/
theorem parseFrom_append {groups : List Group} (h : ∀ g ∈ groups, g.IsValid) (o : Options)
    (rest : List String) :
    o.parseFrom (argumentsOf groups ++ rest) = (o.override groups).parseFrom rest := by
  induction groups generalizing o with
  | nil =>
    rw [override_nil]
    rfl
  | cons g groups ih =>
    have hgroups : ∀ g ∈ groups, g.IsValid := fun g hg => h g (List.mem_cons_of_mem _ hg)
    rw [override_cons, ← ih hgroups]
    cases g with
    | json => exact parseFrom_json o _
    | setting flag value =>
      show o.parseFrom (flag.text :: value :: (argumentsOf groups ++ rest)) = _
      rw [parseFrom_setting, Options.set_of_accepts (h _ List.mem_cons_self)]

theorem parseFrom_of_offends {rest : List String} {e : UsageError} (h : Offends rest e)
    (o : Options) : o.parseFrom rest = .error e := by
  have hstray : ∀ {argument : String} (later : List String), argument ≠ jsonFlag →
      Flag.ofText? argument = none →
      o.parseFrom (argument :: later) = .error (Options.strayArgument argument) := by
    intro argument later hjson hnone
    rw [Options.parseFrom.eq_def]
    simp only [hjson, if_false, hnone]
  cases h with
  | help later hhelp =>
    rcases hhelp with rfl | rfl
    · exact hstray later (by decide) (by decide)
    · exact hstray later (by decide) (by decide)
  | unknown later hjson hflag hhelp =>
    rw [hstray later hjson (ofText?_eq_none_iff.mpr hflag), Options.strayArgument, if_neg]
    simpa [isHelp] using hhelp
  | missingValue flag =>
    rw [Options.parseFrom.eq_def]
    simp only [text_ne_jsonFlag, if_false, Flag.ofText?_text]
  | badValue later hrejects => rw [parseFrom_setting, Options.set_of_rejects hrejects]

/-- A list that does not begin with a good group is empty or offends. -/
theorem begins_with_group (arguments : List String) :
    arguments = [] ∨ (∃ e, Offends arguments e) ∨
      ∃ g rest, g.IsValid ∧ arguments = Group.arguments g ++ rest := by
  cases arguments with
  | nil => exact Or.inl rfl
  | cons argument rest =>
    refine Or.inr ?_
    by_cases hjson : argument = jsonFlag
    · exact Or.inr ⟨.json, rest, trivial, by rw [hjson]; rfl⟩
    cases hflag : Flag.ofText? argument with
    | none =>
      by_cases hhelp : argument = "--help" ∨ argument = "-h"
      · exact Or.inl ⟨_, .help rest hhelp⟩
      · exact Or.inl ⟨_, .unknown rest hjson (ofText?_eq_none_iff.mp hflag) hhelp⟩
    | some flag =>
      obtain rfl := text_of_ofText? hflag
      cases rest with
      | nil => exact Or.inl ⟨_, .missingValue flag⟩
      | cons value rest =>
        rcases accepts_or_rejects flag value with haccepts | ⟨e, hrejects⟩
        · exact Or.inr ⟨.setting flag value, rest, haccepts, rfl⟩
        · exact Or.inl ⟨e, .badValue rest hrejects⟩

/-- **Every list is groups up to its end or up to a place that offends.** -/
theorem exists_groups (arguments : List String) :
    ∃ groups rest, arguments = argumentsOf groups ++ rest ∧ (∀ g ∈ groups, g.IsValid) ∧
      (rest = [] ∨ ∃ e, Offends rest e) := by
  induction hlength : arguments.length using Nat.strongRecOn generalizing arguments with
  | ind length ih =>
    rcases begins_with_group arguments with hnil | hoffends | ⟨g, rest, hvalid, rfl⟩
    · exact ⟨[], arguments, rfl, by simp, Or.inl hnil⟩
    · exact ⟨[], arguments, rfl, by simp, Or.inr hoffends⟩
    · have hshorter : rest.length < length := by
        rw [← hlength, List.length_append]
        cases g <;> simp [Group.arguments]
      obtain ⟨groups, rest, rfl, hgroups, hend⟩ := ih rest.length hshorter rest rfl
      refine ⟨g :: groups, rest, ?_, List.forall_mem_cons.mpr ⟨hvalid, hgroups⟩, hend⟩
      rw [argumentsOf, argumentsOf, List.flatMap_cons, List.append_assoc]

theorem parse_append_of_offends {groups : List Group} (h : ∀ g ∈ groups, g.IsValid)
    {rest : List String} {e : UsageError} (hrest : Offends rest e) :
    Options.parse (argumentsOf groups ++ rest) = .error e := by
  rw [Options.parse, parseFrom_append h, parseFrom_of_offends hrest]

theorem parse_argumentsOf {groups : List Group} (h : ∀ g ∈ groups, g.IsValid) :
    Options.parse (argumentsOf groups) = .ok (Options.standard.override groups) := by
  have hread := parseFrom_append h Options.standard []
  rwa [List.append_nil] at hread

theorem parse_eq_ok_iff {arguments : List String} {o : Options} :
    Options.parse arguments = .ok o ↔
      ∃ groups, arguments = argumentsOf groups ∧ (∀ g ∈ groups, g.IsValid) ∧
        o = Options.standard.override groups := by
  constructor
  · intro h
    obtain ⟨groups, rest, rfl, hgroups, rfl | ⟨e, hoffends⟩⟩ := exists_groups arguments
    · rw [List.append_nil] at h ⊢
      exact ⟨groups, rfl, hgroups, Except.ok.inj (h.symm.trans (parse_argumentsOf hgroups))⟩
    · cases h.symm.trans (parse_append_of_offends hgroups hoffends)
  · rintro ⟨groups, rfl, hgroups, rfl⟩
    exact parse_argumentsOf hgroups

theorem parse_eq_error_iff {arguments : List String} {e : UsageError} :
    Options.parse arguments = .error e ↔
      ∃ groups rest, arguments = argumentsOf groups ++ rest ∧ (∀ g ∈ groups, g.IsValid) ∧
        Offends rest e := by
  constructor
  · intro h
    obtain ⟨groups, rest, rfl, hgroups, rfl | ⟨e', hoffends⟩⟩ := exists_groups arguments
    · rw [List.append_nil] at h
      cases h.symm.trans (parse_argumentsOf hgroups)
    · obtain rfl := Except.error.inj (h.symm.trans (parse_append_of_offends hgroups hoffends))
      exact ⟨groups, rest, rfl, hgroups, hoffends⟩
  · rintro ⟨groups, rest, rfl, hgroups, hoffends⟩
    exact parse_append_of_offends hgroups hoffends

theorem message_ne_empty {e : UsageError} (h : e ≠ .help) : e.message ≠ "" := by
  have hleft : ∀ s t : String, s ≠ "" → s ++ t ≠ "" := by
    intro s t hs hst
    exact hs (String.append_eq_empty_iff.mp hst).1
  have hright : ∀ s t : String, t ≠ "" → s ++ t ≠ "" := by
    intro s t ht hst
    exact ht (String.append_eq_empty_iff.mp hst).2
  cases e with
  | help => exact absurd rfl h
  | unknown | distinctOutOfRange | prioritiesOutOfRange => exact hleft _ _ (by decide)
  | missingValue | notANumber | notACapacity => exact hright _ _ (by decide)

theorem message_eq_empty_iff {e : UsageError} : e.message = "" ↔ e = .help := by
  constructor
  · intro h
    by_contra hne
    exact message_ne_empty hne h
  · rintro rfl
    rfl

/-! ## Options as arguments -/

/-- A whole number of milliseconds that 64 bits hold. -/
def IsMillis (s : Span) : Prop := ∃ n < UInt64.size, s = .ofMillis n

/-- A number of milliseconds in digits. -/
def millisText (s : Span) : String := toString s.wholeMillis

namespace Options

/-- Can every option be given by its flag? -/
structure InRange (o : Options) : Prop where
  flows : o.flows < UInt64.size
  distinct : ∀ n ∈ o.distinct, 1 ≤ n ∧ n ≤ maxDistinct
  linger : ∀ s ∈ o.linger, IsMillis s
  hold : IsMillis o.hold
  deadline : ∀ s ∈ o.deadline, IsMillis s
  priorities : 1 ≤ o.priorities ∧ o.priorities ≤ maxPriorities

/-- The value with which a flag gives its option, if there is one to be given. -/
def value? (o : Options) : Flag → Option String
  | .flows => some (toString o.flows)
  | .distinct => o.distinct.map toString
  | .maxEntries => o.capacity.map Capacity.text
  | .timeout => o.linger.map millisText
  | .hold => some (millisText o.hold)
  | .deadline => o.deadline.map millisText
  | .priorities => some (toString o.priorities)

/-- A group for each option. -/
def groups (o : Options) : List Group :=
  (Flag.all.filterMap fun flag => (o.value? flag).map (Group.setting flag)) ++
    if o.json then [.json] else []

variable {o : Options}

theorem mem_groups_iff {g : Group} :
    g ∈ o.groups ↔ (∃ flag value, o.value? flag = some value ∧ g = .setting flag value) ∨
      o.json = true ∧ g = .json := by
  have hall : ∀ flag : Flag, flag ∈ Flag.all := by
    intro flag
    cases flag <;> decide
  simp only [groups, List.mem_append, List.mem_filterMap, Option.map_eq_some_iff, hall, true_and]
  refine or_congr ?_ ?_
  · constructor
    · rintro ⟨flag, value, hvalue, rfl⟩
      exact ⟨flag, value, hvalue, rfl⟩
    · rintro ⟨flag, value, hvalue, rfl⟩
      exact ⟨flag, value, hvalue, rfl⟩
  · split
    case isTrue h => simp [h]
    case isFalse h => simp [h]

theorem numberOf_toString (n : Nat) : numberOf (toString n) = n :=
  numberOf_eq (Decimal.isNumeral_toString n)

theorem wholeMillis_ofMillis (n : Nat) : (Span.ofMillis n).wholeMillis = n :=
  Nat.mul_div_cancel n (by decide)

theorem ofMillis_numberOf {s : Span} (h : IsMillis s) :
    Span.ofMillis (numberOf (millisText s)) = s := by
  obtain ⟨n, -, rfl⟩ := h
  rw [millisText, numberOf_toString, wholeMillis_ofMillis]

theorem accepts_millisText {s : Span} (h : IsMillis s) {flag : Flag}
    (hflag : ∀ n, n < UInt64.size → flag.Takes n) (hnumber : flag ≠ .maxEntries) :
    flag.Accepts (millisText s) := by
  obtain ⟨n, hsize, rfl⟩ := h
  have hnumeral := Decimal.isNumeral_toString n
  rw [millisText, wholeMillis_ofMillis]
  cases flag with
  | maxEntries => exact absurd rfl hnumber
  | _ => exact ⟨n, hnumeral, hflag n hsize⟩

/-- Options in range are given by good values. -/
theorem InRange.accepts (h : o.InRange) {flag : Flag} {value : String}
    (hvalue : o.value? flag = some value) : flag.Accepts value := by
  cases flag with
  | flows =>
    obtain rfl := Option.some.inj hvalue
    exact ⟨o.flows, Decimal.isNumeral_toString _, h.flows⟩
  | priorities =>
    obtain rfl := Option.some.inj hvalue
    exact ⟨o.priorities, Decimal.isNumeral_toString _, h.priorities⟩
  | hold =>
    obtain rfl := Option.some.inj hvalue
    exact accepts_millisText h.hold (fun n hn => hn) (by decide)
  | distinct =>
    obtain ⟨n, hn, rfl⟩ := Option.map_eq_some_iff.mp hvalue
    exact ⟨n, Decimal.isNumeral_toString n, h.distinct n hn⟩
  | maxEntries =>
    obtain ⟨k, -, rfl⟩ := Option.map_eq_some_iff.mp hvalue
    exact ⟨k, Capacity.parse?_text k⟩
  | timeout =>
    obtain ⟨s, hs, rfl⟩ := Option.map_eq_some_iff.mp hvalue
    exact accepts_millisText (h.linger s hs) (fun n hn => hn) (by decide)
  | deadline =>
    obtain ⟨s, hs, rfl⟩ := Option.map_eq_some_iff.mp hvalue
    exact accepts_millisText (h.deadline s hs) (fun n hn => hn) (by decide)

theorem filterMap_value?_groups (o : Options) (flag : Flag) :
    o.groups.filterMap (Group.value? flag) = (o.value? flag).toList := by
  have hjson : (if o.json then [Group.json] else []).filterMap (Group.value? flag) = [] := by
    split <;> rfl
  have hone : ∀ flag', ((o.value? flag').map (Group.setting flag')).bind (Group.value? flag) =
      if flag' = flag then o.value? flag else none := by
    intro flag'
    split
    case isTrue h =>
      subst h
      cases hvalue : o.value? flag' <;> simp [Group.value?]
    case isFalse h => cases hvalue : o.value? flag' <;> simp [Group.value?, h]
  rw [groups, List.filterMap_append, hjson, List.append_nil, List.filterMap_filterMap]
  simp only [hone]
  cases hvalue : o.value? flag with
  | none => cases flag <;> rfl
  | some v => cases flag <;> rfl

/-- In whatever order the groups stand, each flag has its value. -/
theorem lastValue_of_perm {groups : List Group} (h : groups.Perm o.groups) (flag : Flag) :
    lastValue flag groups = o.value? flag := by
  have hperm := h.filterMap (Group.value? flag)
  rw [filterMap_value?_groups] at hperm
  rw [lastValue]
  cases hvalue : o.value? flag with
  | none =>
    rw [hvalue] at hperm
    rw [List.Perm.eq_nil hperm]
    rfl
  | some v =>
    rw [hvalue] at hperm
    rw [List.perm_singleton.mp hperm]
    rfl

theorem override_of_perm (h : o.InRange) {groups : List Group} (hperm : groups.Perm o.groups) :
    standard.override groups = o := by
  have hjson : decide (Group.json ∈ groups) = o.json := by
    have hmem : decide (Group.json ∈ groups) = decide (Group.json ∈ o.groups) :=
      decide_eq_decide.mpr hperm.mem_iff
    rw [hmem]
    cases hj : o.json <;> simp [mem_groups_iff, hj]
  have hspan : ∀ {s? : Option Span}, (∀ s ∈ s?, IsMillis s) →
      ((s?.map millisText).map fun v => some (Span.ofMillis (numberOf v))).getD none = s? := by
    intro s? hs
    cases s? with
    | none => rfl
    | some s => exact congrArg some (ofMillis_numberOf (hs s rfl))
  have hdistinct : ((o.distinct.map toString).map fun v => some (numberOf v)).getD none =
      o.distinct := by
    cases o.distinct with
    | none => rfl
    | some n => exact congrArg some (numberOf_toString n)
  have hcapacity : ((o.capacity.map Capacity.text).map Capacity.parse?).getD none = o.capacity := by
    cases o.capacity with
    | none => rfl
    | some k => exact Capacity.parse?_text k
  have hlinger := hspan h.linger
  have hdeadline := hspan h.deadline
  have hhold := ofMillis_numberOf h.hold
  cases o
  simp only [override, lastValue_of_perm hperm, value?, standard, Option.map_some,
    Option.getD_some, numberOf_toString, Bool.false_or, hjson] at *
  simp only [hlinger, hdeadline, hhold, hdistinct, hcapacity]

/-- **Options are read back from the arguments that give them**, in whatever order these come. -/
theorem parse_of_perm (h : o.InRange) {groups : List Group} (hperm : groups.Perm o.groups) :
    parse (argumentsOf groups) = .ok o := by
  rw [parse_argumentsOf, override_of_perm h hperm]
  intro g hg
  rcases mem_groups_iff.mp (hperm.mem_iff.mp hg) with ⟨flag, value, hvalue, rfl⟩ | ⟨-, rfl⟩
  · exact h.accepts hvalue
  · trivial

end Options

/-- **Arguments are read exactly if they come in complete groups with good values.** Then each
option is that of the last group that names it, and as usual if there is none. Otherwise the error
is that of the first place that is wrong, after groups that are good, and nothing behind that place
plays a part in it; it has no message if help was asked for, and only then. Options that can be
given at all are read back from the groups that give them, in any order. -/
theorem arguments_come_in_groups :
    (∀ arguments o, Options.parse arguments = .ok o ↔
      ∃ groups, arguments = argumentsOf groups ∧ (∀ g ∈ groups, g.IsValid) ∧
        o = Options.standard.override groups) ∧
    (∀ arguments e, Options.parse arguments = .error e ↔
      ∃ groups rest, arguments = argumentsOf groups ++ rest ∧ (∀ g ∈ groups, g.IsValid) ∧
        Offends rest e) ∧
    (∀ e : UsageError, e.message = "" ↔ e = .help) ∧
    ∀ o : Options, o.InRange → ∀ groups : List Group, groups.Perm o.groups →
      Options.parse (argumentsOf groups) = .ok o := by
  refine ⟨?_, ?_, ?_, ?_⟩
  · intro arguments o
    exact parse_eq_ok_iff
  · intro arguments e
    exact parse_eq_error_iff
  · intro e
    exact message_eq_empty_iff
  · intro o h groups hperm
    exact Options.parse_of_perm h hperm

/-- All options are given, the last one first. -/
theorem arguments_come_in_groups_all_given :
    let o : Options := ⟨8, some 16777216, some .unlimited, some .zero, .ofMillis 10,
      some (.ofMillis 50), 1024, true⟩
    o.InRange ∧ o.groups.reverse.Perm o.groups ∧
      Options.parse ["--json", "--priorities", "1024", "--deadline-ms", "50", "--hold-ms", "10",
        "--timeout-ms", "0", "--max-entries", "unlimited", "--distinct", "16777216",
        "--flows", "8"] = .ok o := by
  intro o
  have hrange : o.InRange := by
    refine ⟨by decide, ?_, ?_, ⟨10, by decide, rfl⟩, ?_, by decide⟩
    · rintro n ⟨rfl⟩
      decide
    · rintro s ⟨rfl⟩
      exact ⟨0, by decide, rfl⟩
    · rintro s ⟨rfl⟩
      exact ⟨50, by decide, rfl⟩
  have hperm := o.groups.reverse_perm
  have hread := arguments_come_in_groups.2.2.2 o hrange _ hperm
  have harguments : argumentsOf o.groups.reverse = ["--json", "--priorities", "1024",
      "--deadline-ms", "50", "--hold-ms", "10", "--timeout-ms", "0", "--max-entries", "unlimited",
      "--distinct", "16777216", "--flows", "8"] := by
    decide +kernel
  rw [harguments] at hread
  exact ⟨hrange, hperm, hread⟩

/-- What follows a flag is its value, also if it looks like a flag. -/
example : Options.parse ["--flows", "8", "--max-entries", "--json", "--help"] =
    .error (.notACapacity "--json") := by
  decide +kernel

end Admission.Simulation
