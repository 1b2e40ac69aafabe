import Admission.Proofs.Documents
import Admission.Status

/-!
# What the JSON form of a status tells

The JSON form is for programs, which have nothing but the text. It gives them back everything except
the parts of a millisecond, and lengths of time beyond 64 bits of milliseconds:

> the value of a status is the value of the status in whole milliseconds, and from the value that
> status is found again.

The first half says what is forgotten, the second that nothing else is. Together they decide when
two statuses have the same text.
-/

set_option autoImplicit false

namespace Admission

open Json

/-! ## Reading a status

The fields of an object may come in any order, and other fields do not matter. Lengths of time were
written in whole milliseconds, and this is what comes back. -/

/-- The entry that an object stands for. -/
def Entry.ofValue? (v : Value) : Option Entry := do
  let protocol ← (v.field? "protocol").bind Value.text?
  let localAddr ← (v.field? "local_addr").bind Value.text?
  let remoteAddr ← (v.field? "remote_addr").bind Value.text?
  return ⟨protocol, localAddr, remoteAddr⟩

/-- A length of time in milliseconds. -/
def Span.ofValue? (v : Value) : Option Span := v.natural?.map Span.ofMillis

namespace Holder

/-- The time that is left, or null if the ticket is not released. -/
def expiryOfValue? (v : Value) : Option (Option Span) :=
  match v with
  | .null => some none
  | v => (Span.ofValue? v).map some

def ofValue? (v : Value) : Option Holder := do
  let entry ← (v.field? "entry").bind Entry.ofValue?
  let reason ← (v.field? "reason").bind Value.text?
  let expiresIn ← (v.field? "expires_in_ms").bind expiryOfValue?
  let age ← (v.field? "age_ms").bind Span.ofValue?
  return ⟨entry, reason, expiresIn, age⟩

end Holder

namespace Status

/-- A reason and how many wait for it. -/
def reasonOfValue? (v : Value) : Option (String × Nat) := do
  let reason ← (v.field? "reason").bind Value.text?
  let waiters ← (v.field? "waiters").bind Value.natural?
  return (reason, waiters)

def ofValue? (v : Value) : Option Status := do
  let numEntries ← (v.field? "num_entries").bind Value.natural?
  let numWaiting ← (v.field? "num_waiters").bind Value.natural?
  let reasons ← (v.field? "waiters_by_reason").bind Value.items?
  let waitingByReason ← reasons.mapM reasonOfValue?
  let handles ← (v.field? "handles").bind Value.items?
  let holders ← handles.mapM Holder.ofValue?
  return ⟨numEntries, numWaiting, waitingByReason, holders⟩

/-- The status that a whole JSON text stands for. -/
def ofText? (s : String) : Option Status := (Value.ofText s).toOption.bind ofValue?

end Status

/-! ## Lengths of time -/

namespace Span

/-- The span in whole milliseconds, as many as fit in 64 bits. -/
def inMillis (s : Span) : Span := ofMillis (min (s.nanos / 1000000) (Nat.pow 2 64 - 1))

theorem ofMillis_jsonMillis (s : Span) : ofMillis s.jsonMillis = s.inMillis := rfl

theorem jsonMillis_ofMillis (ms : Nat) : (ofMillis ms).jsonMillis = min ms (UInt64.size - 1) := by
  rw [jsonMillis, wholeMillis, ofMillis, Nat.mul_div_cancel ms (by decide)]

theorem jsonMillis_inMillis (s : Span) : s.inMillis.jsonMillis = s.jsonMillis := by
  rw [← ofMillis_jsonMillis, jsonMillis_ofMillis, jsonMillis]
  omega

end Span

/-- A holder whose lengths of time are in whole milliseconds. -/
def Holder.inMillis (h : Holder) : Holder :=
  { h with expiresIn := h.expiresIn.map Span.inMillis, age := h.age.inMillis }

/-- A status whose lengths of time are in whole milliseconds. -/
def Status.inMillis (st : Status) : Status := { st with holders := st.holders.map Holder.inMillis }

/-! ## What is forgotten -/

theorem Holder.json_inMillis (h : Holder) : h.inMillis.json = h.json := by
  have hexpiry : h.inMillis.expiryJson = h.expiryJson := by
    rcases h with ⟨entry, reason, _ | s, age⟩
    · rfl
    · simp [expiryJson, inMillis, Span.jsonMillis_inMillis]
  rw [json, json, hexpiry]
  simp [inMillis, Span.jsonMillis_inMillis]

theorem Status.json_inMillis (st : Status) : st.inMillis.json = st.json := by
  simp [json, inMillis, Holder.json_inMillis]

/-! ## What is found again -/

theorem Json.Value.natural?_num (n : Nat) : (Value.num n).natural? = some n := by
  simp [Value.natural?]

theorem Entry.ofValue?_json (e : Entry) : ofValue? e.json = some e := rfl

theorem Span.ofValue?_num (s : Span) : ofValue? (.num s.jsonMillis) = some s.inMillis := by
  rw [ofValue?, Value.natural?_num, Option.map_some, ofMillis_jsonMillis]

namespace Holder

theorem expiryOfValue?_expiryJson (h : Holder) :
    expiryOfValue? h.expiryJson = some (h.expiresIn.map Span.inMillis) := by
  unfold expiryJson
  cases h.expiresIn with
  | none => rfl
  | some s => simp [expiryOfValue?, Span.ofValue?_num]

theorem ofValue?_json (h : Holder) : ofValue? h.json = some h.inMillis := by
  have hentry : (h.json.field? "entry").bind Entry.ofValue? = some h.entry := rfl
  have hreason : (h.json.field? "reason").bind Value.text? = some h.reason := rfl
  have hexpiry : (h.json.field? "expires_in_ms").bind expiryOfValue? =
      some (h.expiresIn.map Span.inMillis) := expiryOfValue?_expiryJson h
  have hage : (h.json.field? "age_ms").bind Span.ofValue? = some h.age.inMillis :=
    Span.ofValue?_num h.age
  rw [ofValue?, hentry, hreason, hexpiry, hage]
  rfl

/-- Null stands for the time that is left of a holder that is not released, and for nothing else. -/
theorem expiryJson_eq_null_iff (h : Holder) : h.expiryJson = .null ↔ h.expiresIn = none := by
  unfold expiryJson
  cases h.expiresIn <;> simp

end Holder

namespace Status

theorem reasonOfValue?_json (row : String × Nat) : reasonOfValue? (reasonJson row) = some row := by
  have hreason : ((reasonJson row).field? "reason").bind Value.text? = some row.1 := rfl
  have hwaiters : ((reasonJson row).field? "waiters").bind Value.natural? = some row.2 :=
    Value.natural?_num row.2
  rw [reasonOfValue?, hreason, hwaiters]
  rfl

/-- Rows that are each found again are found again together, in their order. -/
theorem mapM_map_of_forall {α β : Type} {write : α → Value} {read : Value → Option β} {f : α → β}
    (h : ∀ a, read (write a) = some (f a)) (rows : List α) :
    (rows.map write).mapM read = some (rows.map f) := by
  have hread : read ∘ write = fun a => pure (f a) := funext h
  rw [List.mapM_map, hread, List.mapM_pure]
  rfl

theorem ofValue?_json (st : Status) : ofValue? st.json = some st.inMillis := by
  have hentries : (st.json.field? "num_entries").bind Value.natural? = some st.numEntries :=
    Value.natural?_num st.numEntries
  have hwaiting : (st.json.field? "num_waiters").bind Value.natural? = some st.numWaiting :=
    Value.natural?_num st.numWaiting
  have hreasons : (st.json.field? "waiters_by_reason").bind Value.items? =
      some (st.waitingByReason.map reasonJson) := rfl
  have hholders : (st.json.field? "handles").bind Value.items? =
      some (st.holders.map Holder.json) := rfl
  have hreasonRows : (st.waitingByReason.map reasonJson).mapM reasonOfValue? =
      some st.waitingByReason := by
    simpa using mapM_map_of_forall (f := id) reasonOfValue?_json st.waitingByReason
  have hholderRows : (st.holders.map Holder.json).mapM Holder.ofValue? =
      some (st.holders.map Holder.inMillis) := mapM_map_of_forall Holder.ofValue?_json st.holders
  rw [ofValue?, hentries, hwaiting, hreasons, hholders]
  simp only [Option.bind_eq_bind, Option.bind_some, hreasonRows, hholderRows]
  rfl

/-- A program gets the status in whole milliseconds from any text that denotes its value. -/
theorem ofText?_of_denotes {st : Status} {s : String} (h : Denotes (.value st.json) s.toList) :
    ofText? s = some st.inMillis := by
  have hread : Value.ofText s = .ok st.json := by
    rw [← String.ofList_toList (s := s)]
    exact ofText_of_denotes h
  rw [ofText?, hread]
  exact ofValue?_json st

/-- **The JSON form of a status is faithful up to milliseconds.** Both its texts are JSON for its
value; a program gets back from them the same counts, rows and strings, with every length of time in
whole milliseconds as far as 64 bits hold them. Null stands for a holder that is not released only.
So two statuses have the same text if and only if they agree in whole milliseconds. -/
theorem json_is_faithful :
    (∀ st : Status,
      (Denotes (.value st.json) st.json.compact.toList ∧
        ofText? st.json.compact = some st.inMillis) ∧
      (Denotes (.value st.json) st.json.tall.toList ∧
        ofText? st.json.tall = some st.inMillis)) ∧
    (∀ h : Holder, h.json.field? "expires_in_ms" = some .null ↔ h.expiresIn = none) ∧
    ∀ st st' : Status,
      (st.json.compact = st'.json.compact ↔ st.inMillis = st'.inMillis) ∧
      (st.json.tall = st'.json.tall ↔ st.inMillis = st'.inMillis) := by
  have hcompact : ∀ st : Status, ofText? st.json.compact = some st.inMillis := fun st =>
    ofText?_of_denotes (denotes_compact st.json)
  have htall : ∀ st : Status, ofText? st.json.tall = some st.inMillis := fun st =>
    ofText?_of_denotes (denotes_tall st.json)
  have hsame : ∀ st st' : Status, st.inMillis = st'.inMillis → st.json = st'.json := by
    intro st st' heq
    rw [← json_inMillis st, heq, json_inMillis st']
  refine ⟨?_, ?_, ?_⟩
  · intro st
    exact ⟨⟨denotes_compact st.json, hcompact st⟩, denotes_tall st.json, htall st⟩
  · intro h
    have hfield : h.json.field? "expires_in_ms" = some h.expiryJson := rfl
    rw [hfield, Option.some_inj, h.expiryJson_eq_null_iff]
  · intro st st'
    refine ⟨⟨?_, ?_⟩, ?_, ?_⟩
    · intro heq
      exact Option.some_inj.mp ((hcompact st).symm.trans (heq ▸ hcompact st'))
    · intro heq
      rw [hsame st st' heq]
    · intro heq
      exact Option.some_inj.mp ((htall st).symm.trans (heq ▸ htall st'))
    · intro heq
      rw [hsame st st' heq]

end Status

end Admission
