import Admission.Proofs.Expiries
import Admission.Proofs.Occupancy
import Admission.Proofs.StatusText
import Std.Data.String.ToNat

/-!
# The life of a handle in the log

The lines about a handle come from many places: from the guard of a call that is given up, from the
evaluation that lets a call in, from the three ways to release a handle, and from the timer of its
linger. Whatever happens in between to others, those about one handle can be read like a sentence
(`Lifecycle`):

> what the log has said of a handle so far is told by what became of its call, and by whether its
> ticket is with its entry (`Told`).

So a handle that was let in is in the table exactly as long as the log does not say that it expired,
and each line that says so is written when a ticket leaves the table, and tells whether the entry
went with it.
-/

set_option autoImplicit false

namespace Admission

/-! ## What the log can say of a handle -/

/-- What the log says of a handle up to its release. `kept` says whether its caller has it still,
and so may release it again. -/
inductive Opening : (kept : Bool) → List String → Prop
  | finished : Opening true ["Entry admitted"]
  | dropped : Opening false ["Entry admitted", "EntryHandle dropped without done() - releasing"]
  | unanswered :
      Opening false ["Entry admitted", "EntryHandle dropped without done() - releasing",
        "Timeout policy panicked - using default linger"]

/-- What the log says of the releases after the first: there are some only if the handle was
kept. -/
def Repeats (kept : Bool) (lines : List String) : Prop :=
  ∀ line ∈ lines, kept = true ∧ line = "Handle already released"

/-- All that the log says of a handle, if it is followed to its end. -/
inductive Lifecycle : List String → Prop
  | abandoned : Lifecycle ["Abandoned wait deregistered"]
  | endless {kept : Bool} {x y : List String} (hx : Opening kept x) (hy : Repeats kept y) :
      Lifecycle
        (x ++ ["Handle released", "Linger out of clock range - slot stays occupied"] ++ y)
  | expired {kept : Bool} {x y z : List String} (hx : Opening kept x) (hy : Repeats kept y)
      (hz : Repeats kept z) :
      Lifecycle (x ++ ["Handle released"] ++ y ++ ["Handle expired"] ++ z)

/-- What the log has said of a handle so far, by what became of the call and by whether its ticket
is with its entry. -/
inductive Told : Phase → (here : Bool) → List String → Prop
  | pending {here : Bool} : Told .pending here []
  | cancelled {here : Bool} : Told .cancelled here []
  | abandoned {here : Bool} : Told .abandoned here ["Abandoned wait deregistered"]
  | admitted {held : Bool} : Told (.admitted held none) true ["Entry admitted"]
  | endless {kept held : Bool} {x y : List String} (hx : Opening kept x) (hy : Repeats kept y)
      (hheld : held = true → kept = true) :
      Told (.admitted held (some .endless)) true
        (x ++ ["Handle released", "Linger out of clock range - slot stays occupied"] ++ y)
  | lingers {kept held : Bool} {announced freed : Nat} {x y : List String} (hx : Opening kept x)
      (hy : Repeats kept y) (hheld : held = true → kept = true) :
      Told (.admitted held (some (.ends announced freed))) true (x ++ ["Handle released"] ++ y)
  | expired {kept held : Bool} {announced freed : Nat} {x y z : List String} (hx : Opening kept x)
      (hy : Repeats kept y) (hz : Repeats kept z) (hheld : held = true → kept = true) :
      Told (.admitted held (some (.ends announced freed))) false
        (x ++ ["Handle released"] ++ y ++ ["Handle expired"] ++ z)

theorem repeats_nil (kept : Bool) : Repeats kept [] := by simp [Repeats]

theorem Repeats.concat {kept : Bool} {lines : List String} (h : Repeats kept lines)
    (hkept : kept = true) : Repeats kept (lines ++ ["Handle already released"]) := by
  intro line hline
  rcases List.mem_append.mp hline with hline | hline
  · exact h line hline
  · exact ⟨hkept, List.mem_singleton.mp hline⟩

namespace Told

variable {phase : Phase} {here held : Bool} {r : Release} {announced freed : Nat}
  {x y : List String}

/-! ### What happens, and the line that is added -/

theorem letIn (h : Told .pending here x) :
    Told (.admitted true none) true (x ++ ["Entry admitted"]) := by
  cases h
  exact .admitted

theorem abandon (h : Told .pending here x) :
    Told .abandoned here (x ++ ["Abandoned wait deregistered"]) := by
  cases h
  exact .abandoned

/-- The first release, and how the caller came to it. -/
theorem release (h : Told (.admitted true none) here x) {kept : Bool}
    (hy : Opening kept (["Entry admitted"] ++ y)) (hheld : held = true → kept = true) :
    (∀ announced freed, Told (.admitted held (some (.ends announced freed))) here
      (x ++ (y ++ ["Handle released"]))) ∧
    Told (.admitted held (some .endless)) here
      (x ++ (y ++ ["Handle released", "Linger out of clock range - slot stays occupied"])) := by
  cases h
  rw [← List.append_assoc, ← List.append_assoc]
  constructor
  · intro announced freed
    have hlingers : Told (.admitted held (some (.ends announced freed))) true _ :=
      .lingers hy (repeats_nil kept) hheld
    rwa [List.append_nil] at hlingers
  · have hendless := Told.endless hy (repeats_nil kept) hheld
    rwa [List.append_nil] at hendless

theorem again (h : Told (.admitted true (some r)) here x) :
    Told (.admitted true (some r)) here (x ++ ["Handle already released"]) := by
  cases h with
  | endless hx hy hheld =>
    rw [List.append_assoc]
    exact .endless hx (hy.concat (hheld rfl)) hheld
  | lingers hx hy hheld =>
    rw [List.append_assoc]
    exact .lingers hx (hy.concat (hheld rfl)) hheld
  | expired hx hy hz hheld =>
    rw [List.append_assoc]
    exact .expired hx hy (hz.concat (hheld rfl)) hheld

theorem letGo (h : Told (.admitted held (some r)) here x) :
    Told (.admitted false (some r)) here x := by
  cases h with
  | endless hx hy _ => exact .endless hx hy (by simp)
  | lingers hx hy _ => exact .lingers hx hy (by simp)
  | expired hx hy hz _ => exact .expired hx hy hz (by simp)

theorem expire (h : Told (.admitted held (some (.ends announced freed))) true x) :
    Told (.admitted held (some (.ends announced freed))) false (x ++ ["Handle expired"]) := by
  cases h with
  | lingers hx hy hheld =>
    have hexpired : Told (.admitted held (some (.ends announced freed))) false _ :=
      .expired hx hy (repeats_nil _) hheld
    rwa [List.append_nil] at hexpired

/-! ### What can be read off -/

theorem exists_lifecycle (h : Told phase here x) : ∃ life, Lifecycle life ∧ x <+: life := by
  cases h with
  | pending => exact ⟨_, .abandoned, List.nil_prefix⟩
  | cancelled => exact ⟨_, .abandoned, List.nil_prefix⟩
  | abandoned => exact ⟨_, .abandoned, List.prefix_rfl⟩
  | admitted => exact ⟨_, .endless .finished (repeats_nil _), by simp⟩
  | endless hx hy _ => exact ⟨_, .endless hx hy, List.prefix_rfl⟩
  | lingers hx hy _ =>
    refine ⟨_, .expired hx hy (repeats_nil _), ?_⟩
    rw [List.append_assoc _ ["Handle expired"]]
    exact List.prefix_append _ _
  | expired hx hy hz _ => exact ⟨_, .expired hx hy hz, List.prefix_rfl⟩

end Told

theorem Repeats.not_mem {kept : Bool} {lines : List String} (h : Repeats kept lines) {line : String}
    (hline : line ≠ "Handle already released") : line ∉ lines := fun hin => hline (h line hin).2

theorem Opening.mem {kept : Bool} {lines : List String} (h : Opening kept lines) :
    "Entry admitted" ∈ lines ∧ "Handle expired" ∉ lines := by
  cases h <;> simp

theorem Told.here_iff {held here : Bool} {release : Option Release} {x : List String}
    (h : Told (.admitted held release) here x) :
    "Entry admitted" ∈ x ∧ (here = true ↔ "Handle expired" ∉ x) := by
  cases h with
  | admitted => simp
  | endless hx hy _ =>
    have hnot : "Handle expired" ∉ _ := hy.not_mem (by simp)
    simp [hx.mem, hnot]
  | lingers hx hy _ =>
    have hnot : "Handle expired" ∉ _ := hy.not_mem (by simp)
    simp [hx.mem, hnot]
  | expired hx _ _ _ => simp [hx.mem]

/-! ## Which lines are about a handle -/

/-- Does a field of the line name the handle of the call with this number? -/
def LogLine.isAbout (l : LogLine) (k : Nat) : Bool :=
  l.fields.contains ("handle", .text ("h" ++ toString k))

namespace Event

/-- The call whose handle an event names. -/
def handle? : Event → Option Nat
  | admitted t _ _ | abandoned t | released t _ | endless t _ | threadRefused t _ | expired t _
  | droppedHeld t | releasedAgain t | policyFailed t => some t.id
  | cancelled _ _ _ | capacityChanged _ | blocked _ | deadlineReached _ _ => none

theorem isAbout_record_iff {e : Event} {k : Nat} :
    e.record.isAbout k = true ↔ e.handle? = some k := by
  cases e <;>
    simp [LogLine.isAbout, record, fields, waitedFields, Ticket.logFields, Ticket.handleName,
      handle?, @eq_comm Nat k]

theorem handle?_of_isScheduling {e : Event} (h : e.isScheduling = true) : e.handle? = none := by
  cases e with
  | blocked t => rfl
  | deadlineReached t D => rfl
  | _ => cases h

theorem message_eq_expired_iff {e : Event} :
    e.message = "Handle expired" ↔ ∃ t freed, e = .expired t freed := by
  cases e <;> simp [message]

end Event

/-- What events say of one handle. -/
def story (k : Nat) (events : List Event) : List String :=
  (events.filter fun e => e.handle? = some k).map Event.message

theorem story_append (k : Nat) (events later : List Event) :
    story k (events ++ later) = story k events ++ story k later := by
  rw [story, List.filter_append, List.map_append]
  rfl

/-- What the lines of the log say of one handle is what the events say of it. -/
theorem story_eq (k : Nat) (answers : List Answer) :
    ((answers.flatMap Answer.log).filter (·.isAbout k)).map LogLine.message =
      story k (answers.flatMap Answer.events) := by
  induction answers with
  | nil => rfl
  | cons a rest ih =>
    rw [List.flatMap_cons, List.filter_append, List.map_append, ih, List.flatMap_cons, story_append,
      Answer.log, List.filter_map, List.map_map, List.filter_filter]
    congr 1
    refine congrArg (List.map Event.message) (List.filter_congr fun e _ => ?_)
    rw [Bool.eq_iff_iff]
    simp only [Function.comp_apply, Bool.and_eq_true, Event.isAbout_record_iff, decide_eq_true_eq,
      Bool.not_eq_true']
    refine and_iff_left_of_imp fun hhandle => ?_
    by_contra hscheduling
    rw [Bool.not_eq_false] at hscheduling
    rw [Event.handle?_of_isScheduling hscheduling] at hhandle
    cases hhandle

namespace Session

variable {s s₁ : Session} {what : Step} {events : List Event} {capacity : Capacity} {linger : Span}
  {i j : Nat} {w : Wait} {x : List String}

/-- The log has said this of a handle, and nothing else. -/
structure Tells (s : Session) (i : Nat) (x : List String) : Prop where
  uncalled : s.waits[i]? = none → x = []
  told : ∀ w, s.waits[i]? = some w → Told w.phase (s.controller.holds w.ticket) x

theorem tells_of_getElem? (hw : s.waits[i]? = some w)
    (h : Told w.phase (s.controller.holds w.ticket) x) : s.Tells i x where
  uncalled hnone := by
    rw [hw] at hnone
    cases hnone
  told v hv := by
    obtain rfl := Option.some.inj (hw.symm.trans hv)
    exact h

/-! ## What happens to one call -/

/-- Something becomes of one call, and the log tells it of this call only. -/
theorem Tells.move (hs : s.Orderly) {phase : Phase} (hw : s.waits[j]? = some w)
    (hwaits : s₁.waits = (s.setPhase j phase).waits)
    (hholds : ∀ t : Ticket, t.id ≠ j → s₁.controller.holds t = s.controller.holds t)
    (hothers : ∀ k, k ≠ j → story k events = [])
    (htold : ∀ x, Told w.phase (s.controller.holds w.ticket) x →
      Told phase (s₁.controller.holds w.ticket) (x ++ story j events))
    (h : s.Tells i x) : s₁.Tells i (x ++ story i events) := by
  by_cases hij : i = j
  · subst hij
    exact tells_of_getElem? (getElem?_setPhase_self hwaits hw) (htold x (h.told w hw))
  · rw [hothers i hij, List.append_nil]
    have hsame : s₁.waits[i]? = s.waits[i]? := by
      rw [hwaits, getElem?_setPhase, if_neg (Ne.symm hij)]
    refine ⟨fun hnone => h.uncalled (hsame ▸ hnone), fun v hv => ?_⟩
    rw [hsame] at hv
    rw [hholds v.ticket (by rwa [hs.id_eq hv])]
    exact h.told v hv

theorem story_of_forall {k : Nat} (h : ∀ e ∈ events, e.handle? = some j) (hne : k ≠ j) :
    story k events = [] := by
  rw [story, List.filter_eq_nil_iff.mpr, List.map_nil]
  intro e he
  rw [h e he]
  simpa using Ne.symm hne

theorem Turn.tells (h : Turn s s₁ events) (hs : s.Orderly) (htells : s.Tells i x) :
    s₁.Tells i (x ++ story i events) := by
  have horderly := hs
  cases h with
  | @expire j w instant hw hend hdue =>
    obtain rfl := hs.id_eq hw
    obtain ⟨hholds, announced, hrelease⟩ := lingerEnd?_eq_some_iff.mp hend
    obtain ⟨held, hphase⟩ := Wait.phase_of_release? hrelease
    refine htells.move horderly hw (congrArg waits (setPhase_self hw)).symm ?_ ?_ ?_
    · intro t ht
      refine Controller.holds_apply_eq ?_ ?_
      · intro u hu
        cases hu
        exact Ne.symm ht
      · intro u cancelled hu
        cases hu
    · exact fun k => story_of_forall (by simp [Event.handle?])
    · intro x hx
      rw [hholds, hphase] at hx
      have hgone := Controller.holds_expire_self s.controller w.ticket
      simpa [story, Event.handle?, Event.message, withController, hphase, hgone] using hx.expire
  | @evaluate j w cancelled hw hpending _ =>
    obtain rfl := hs.id_eq hw
    have hothers : ∀ t : Ticket, t.id ≠ w.ticket.id →
        (s.controller.apply (.evaluate w.ticket cancelled)).holds t = s.controller.holds t := by
      intro t ht
      refine Controller.holds_apply_eq ?_ ?_
      · intro u hu
        cases hu
      · intro u c hu
        cases hu
        exact Ne.symm ht
    cases hv : s.controller.verdict w.ticket cancelled with
    | granted =>
      have hin : (s.controller.apply (.evaluate w.ticket cancelled)).holds w.ticket = true := by
        simp [Controller.apply, hv, Controller.execute, Controller.holds_grant_iff]
      simp only [conclude, hv]
      refine htells.move horderly hw rfl hothers ?_ ?_
      · exact fun k => story_of_forall (by simp [Event.handle?])
      · intro x hx
        rw [hpending] at hx
        simpa [story, Event.handle?, Event.message, setPhase, withController, hin] using hx.letIn
    | withdrawn =>
      simp only [conclude, hv]
      refine htells.move horderly hw rfl hothers ?_ ?_
      · exact fun k _ => by simp [story, Event.handle?]
      · intro x hx
        rw [hpending] at hx
        cases hx
        simpa [story, Event.handle?] using Told.cancelled
    | blocked =>
      rw [conclude_of_stays (Or.inl hv)]
      simpa [story] using htells
    | orphaned =>
      rw [conclude_of_stays (Or.inr hv)]
      simpa [story] using htells
  | blocked t => simpa [story, Event.handle?] using htells
  | tick _ _ _ _ =>
    rw [show story i [] = [] from rfl, List.append_nil]
    exact ⟨htells.uncalled, htells.told⟩

theorem Turns.tells (h : Turns s s₁ events) (hs : s.Orderly) (htells : s.Tells i x) :
    s₁.Tells i (x ++ story i events) := by
  induction h generalizing x with
  | refl s => simpa [story] using htells
  | cons hturn _ ih =>
    rw [story_append, ← List.append_assoc]
    exact ih (hturn.replays.orderly hs) (hturn.tells hs htells)

/-! ## What a caller asks for -/

/-- Something becomes of one call only, and no ticket moves. -/
theorem Tells.setPhase (hs : s.Orderly) (hw : s.waits[j]? = some w) {phase : Phase}
    (hevents : ∀ e ∈ events, e.handle? = some w.ticket.id)
    (htold : ∀ x, Told w.phase (s.controller.holds w.ticket) x →
      Told phase (s.controller.holds w.ticket) (x ++ story w.ticket.id events))
    (h : s.Tells i x) : (s.setPhase w.ticket.id phase).Tells i (x ++ story i events) := by
  obtain rfl := hs.id_eq hw
  exact h.move hs hw rfl (fun _ _ => rfl) (fun k => story_of_forall hevents) htold

/-- The lines of a release. -/
theorem Tells.release (hs : s.Orderly) (hw : s.waits[j]? = some w)
    (hphase : w.phase = .admitted true none) {kept held : Bool} {sleep : Sleep}
    (told : List Event) (L : Span) (hevents : ∀ e ∈ told, e.handle? = some w.ticket.id)
    (hopening : Opening kept (["Entry admitted"] ++ told.map Event.message))
    (hheld : held = true → kept = true) (h : s.Tells i x) :
    (s.release w held sleep L).1.Tells i
      (x ++ story i (told ++ (s.release w held sleep L).2)) := by
  have hstory : ∀ later : List Event, (∀ e ∈ later, e.handle? = some w.ticket.id) →
      story w.ticket.id (told ++ later) = told.map Event.message ++ later.map Event.message := by
    intro later hlater
    rw [story, List.filter_eq_self.mpr, List.map_append]
    intro e he
    rcases List.mem_append.mp he with he | he
    · simpa using hevents e he
    · simpa using hlater e he
  have hreleased : ∀ e ∈ s.releaseEvents w.ticket L, e.handle? = some w.ticket.id := by
    unfold releaseEvents
    split <;> simp [Event.handle?]
  refine h.setPhase hs hw ?_ fun x hx => ?_
  · intro e he
    rcases List.mem_append.mp he with he | he
    · exact hevents e he
    · exact hreleased e he
  · rw [hphase] at hx
    obtain ⟨hends, hendless⟩ := hx.release hopening hheld
    show Told _ _ (x ++ story w.ticket.id (told ++ s.releaseEvents w.ticket L))
    rw [hstory _ hreleased]
    unfold releaseAfter releaseEvents
    cases instantAfter s.now L with
    | some announced => exact hends announced _
    | none => exact hendless

theorem tells_finishBy (hs : s.Orderly) (hw : s.held? j = some w) (sleep : Sleep)
    (h : s.Tells i x) :
    (s.finishBy w (s.release w true sleep)).1.Tells i
      (x ++ story i (s.finishBy w (s.release w true sleep)).2.2) := by
  obtain ⟨hget, hphase⟩ := getElem?_of_held? hw
  unfold finishBy
  cases hrelease : w.release? with
  | some r =>
    have hagain : (s.setPhase w.ticket.id w.phase).Tells i
        (x ++ story i [.releasedAgain w.ticket]) := by
      refine h.setPhase hs hget (by simp [Event.handle?]) fun x hx => ?_
      rw [hphase, hrelease] at hx ⊢
      simpa [story, Event.handle?, Event.message] using hx.again
    rwa [hs.id_eq hget, setPhase_self hget] at hagain
  | none =>
    rw [hrelease] at hphase
    cases s.askPolicy w with
    | error f => simpa [story] using h
    | ok L => exact h.release hs hget hphase [] L (by simp) .finished fun _ => rfl

theorem tells_letGo (hs : s.Orderly) (hw : s.held? j = some w) {r : Release}
    (hrelease : w.release? = some r) (h : s.Tells i x) :
    (s.setPhase w.ticket.id (.admitted false (some r))).Tells i (x ++ story i []) := by
  obtain ⟨hget, hphase⟩ := getElem?_of_held? hw
  refine h.setPhase hs hget (by simp) fun x hx => ?_
  rw [hphase, hrelease] at hx
  simpa [story] using hx.letGo

theorem tells_drop (hs : s.Orderly) (hw : s.held? j = some w) (h : s.Tells i x) :
    (s.drop w).1.Tells i (x ++ story i (s.drop w).2) := by
  obtain ⟨hget, hphase⟩ := getElem?_of_held? hw
  unfold drop
  cases hrelease : w.release? with
  | some r => exact tells_letGo hs hw hrelease h
  | none =>
    rw [hrelease] at hphase
    cases s.askPolicy w with
    | error f =>
      exact h.release hs hget hphase [.droppedHeld w.ticket, .policyFailed w.ticket] s.fallback
        (by simp [Event.handle?]) .unanswered (by simp)
    | ok L =>
      exact h.release hs hget hphase [.droppedHeld w.ticket] L (by simp [Event.handle?]) .dropped
        (by simp)

theorem tells_lose (hs : s.Orderly) (hw : s.held? j = some w) (h : s.Tells i x) :
    (s.lose w).1.Tells i (x ++ story i (s.lose w).2) := by
  obtain ⟨hget, hphase⟩ := getElem?_of_held? hw
  unfold lose
  cases hrelease : w.release? with
  | some r => exact tells_letGo hs hw hrelease h
  | none =>
    rw [hrelease] at hphase
    exact h.release hs hget hphase [.droppedHeld w.ticket] s.fallback (by simp [Event.handle?])
      .dropped (by simp)

theorem tells_abandon (hs : s.Orderly) (hw : s.pending? j = some w) (h : s.Tells i x) :
    (s.abandon w).1.Tells i (x ++ story i (s.abandon w).2) := by
  obtain ⟨hget, hphase⟩ := getElem?_of_pending? hw
  obtain rfl := hs.id_eq hget
  refine h.move hs hget rfl (fun _ _ => rfl) (fun k => story_of_forall ?_) fun x hx => ?_
  · simp [Session.abandon, Event.handle?]
  · rw [hphase] at hx
    show Told .abandoned (s.controller.holds w.ticket) _
    simpa [Session.abandon, story, Event.handle?, Event.message] using hx.abandon

/-- A new call says nothing yet. -/
theorem tells_register (h : s.Tells i x) (hw : w.phase = .pending) : (s.register w).Tells i x := by
  have hpush : (s.register w).waits[i]? = if i = s.waits.size then some w else s.waits[i]? :=
    Array.getElem?_push
  by_cases hi : i = s.waits.size
  · rw [if_pos hi] at hpush
    have hx : x = [] := h.uncalled (by simp [hi])
    refine tells_of_getElem? hpush ?_
    rw [hx, hw]
    exact .pending
  · rw [if_neg hi] at hpush
    exact ⟨fun hnone => h.uncalled (hpush ▸ hnone), fun v hv => h.told v (hpush ▸ hv)⟩

theorem tells_withHandle {act : Wait → Session × Reply × List Event}
    (hact : ∀ w, s.held? j = some w → (act w).1.Tells i (x ++ story i (act w).2.2))
    (h : s.Tells i x) :
    (s.withHandle j act).1.Tells i (x ++ story i (s.withHandle j act).2.2) := by
  unfold withHandle
  cases hw : s.held? j with
  | none => simpa [story] using h
  | some w => exact hact w hw

theorem tells_finishStep (hs : s.Orderly) (h : s.Tells i x) {id : Nat} {what : Step}
    (hwhat : what = .finish id ∨ what = .finishDetached id) :
    (s.perform what).1.Tells i (x ++ story i (s.perform what).2.2) := by
  rw [perform_finish hwhat]
  exact tells_withHandle (fun w hw => tells_finishBy hs hw what.sleep h) h

theorem tells_perform (hs : s.Orderly) (what : Step) (h : s.Tells i x) :
    (s.perform what).1.Tells i (x ++ story i (s.perform what).2.2) := by
  have hsame : s.Tells i (x ++ story i []) := by simpa [story] using h
  cases what with
  | wait e reason priority token deadline =>
    have hregister : (s.register (s.newWait e reason priority token deadline)).Orderly :=
      (Request.call e reason priority token deadline).replays.orderly hs
    exact (turns_start s rfl).tells hregister (tells_register h rfl)
  | cancel token =>
    simp only [perform]
    exact ⟨hsame.uncalled, hsame.told⟩
  | abandon id =>
    cases hpending : s.pending? id with
    | none => simpa only [perform, hpending] using hsame
    | some w => simpa only [perform, hpending] using tells_abandon hs hpending h
  | finish id => exact tells_finishStep hs h (Or.inl rfl)
  | finishDetached id => exact tells_finishStep hs h (Or.inr rfl)
  | drop id =>
    simp only [perform]
    exact tells_withHandle (fun w hw => tells_drop hs hw h) h
  | lose id =>
    simp only [perform]
    exact tells_withHandle (fun w hw => tells_lose hs hw h) h
  | view id =>
    simp only [perform]
    exact tells_withHandle (fun w hw => hsame) h
  | advance ms => exact (turns_perform_advance hs ms).tells hs h
  | setCapacity c =>
    simp only [perform]
    exact ⟨hsame.uncalled, hsame.told⟩
  | setPolicy p =>
    simp only [perform]
    exact ⟨hsame.uncalled, hsame.told⟩
  | capacity => simpa only [perform] using hsame
  | waitingFor e => simpa only [perform] using hsame
  | statusJson => simpa only [perform] using hsame
  | statusText => simpa only [perform] using hsame
  | debug => simpa only [perform] using hsame

theorem tells_step (hs : s.Orderly) (what : Step) (h : s.Tells i x) :
    (s.step what).1.Tells i (x ++ story i (s.step what).2.events) := by
  have hperform := tells_perform hs what h
  have hperformed := (replays_perform s what).orderly hs
  have hsettle := (turns_settle (s.perform what).1).tells hperformed hperform
  rwa [List.append_assoc, ← story_append] at hsettle

/-- **The log has said of each handle what became of it**, and nothing else. -/
theorem tells_run (capacity : Capacity) (linger : Span) (steps : List Step) (k : Nat) :
    let r := (new capacity linger).run steps
    r.1.Tells k (story k (r.2.flatMap Answer.events)) := by
  refine run_induction (P := fun _ answers s => s.Tells k (story k (answers.flatMap Answer.events)))
    ?_ ?_ steps
  · exact ⟨fun _ => by simp [story], fun w hw => by simp [new] at hw⟩
  · intro steps what r hs ih
    rw [List.flatMap_append, story_append, List.flatMap_singleton]
    exact tells_step hs what ih

/-! ## The table -/

/-- **A handle is in the table from the line that it was admitted to the line that it expired.** -/
theorem Tells.mem_ids_iff (hs : s.Orderly) (h : s.Tells i x) :
    (∃ e, i ∈ s.controller.occupancy.ids e) ↔ "Entry admitted" ∈ x ∧ "Handle expired" ∉ x := by
  have htable : (∃ e, i ∈ s.controller.occupancy.ids e) ↔
      ∃ w, s.waits[i]? = some w ∧ s.controller.holds w.ticket = true := by
    simp only [mem_ids_iff_holds hs]
    constructor
    · rintro ⟨e, w, hw, -, hholds⟩
      exact ⟨w, hw, hholds⟩
    · rintro ⟨w, hw, hholds⟩
      exact ⟨w.ticket.entry, w, hw, rfl, hholds⟩
  rw [htable]
  cases hw : s.waits[i]? with
  | none => simp [h.uncalled hw]
  | some w =>
    have h := h.told w hw
    simp only [Option.some.injEq, exists_eq_left']
    constructor
    · intro hholds
      obtain ⟨held, release, hphase⟩ := admitted_of_holds hs hw hholds
      rw [hphase] at h
      exact ⟨h.here_iff.1, h.here_iff.2.mp hholds⟩
    · rintro ⟨hadmitted, hexpired⟩
      cases hphase : w.phase with
      | admitted held release =>
        rw [hphase] at h
        exact h.here_iff.2.mpr hexpired
      | pending => rw [hphase] at h; cases h; cases hadmitted
      | cancelled => rw [hphase] at h; cases h; cases hadmitted
      | abandoned => rw [hphase] at h; cases h; simp at hadmitted

/-- In the course of a step, in the session `m`, a ticket leaves the table, and the line of the log
says so; its field `freed` is true exactly if the entry leaves the table with the ticket. -/
structure Removal (s : Session) (what : Step) (m : Session) (t : Ticket) (line : LogLine) :
    Prop where
  passes : s.Passes what m (m.withController (m.controller.apply (.expire t)))
    [.expired t (m.controller.wouldFree t)]
  before : t.id ∈ m.controller.occupancy.ids t.entry
  after : t.id ∉ (m.controller.apply (.expire t)).occupancy.ids t.entry
  fields : ∃ freed, line.fields = t.logFields ++ [("freed", .flag freed)] ∧
    (freed = true ↔ m.controller.isOccupied t.entry = true ∧
      (m.controller.apply (.expire t)).isOccupied t.entry = false)

theorem exists_removal (capacity : Capacity) (linger : Span) (steps : List Step) (what : Step)
    {line : LogLine} (hline : line ∈ (((new capacity linger).run steps).1.step what).2.log)
    (hmessage : line.message = "Handle expired") :
    ∃ m t, Removal ((new capacity linger).run steps).1 what m t line := by
  obtain ⟨e, he, rfl⟩ := List.mem_map.mp hline
  obtain ⟨t, freed, rfl⟩ := Event.message_eq_expired_iff.mp hmessage
  obtain ⟨m, hexpires⟩ := exists_expires capacity linger steps what (List.mem_filter.mp he).1
  have hfreed : m.controller.wouldFree t = freed := by
    rw [Bool.eq_iff_iff, hexpires.last]
    exact wouldFree_iff hexpires.holds
  have hbefore : t.id ∈ m.controller.occupancy.ids t.entry := by
    have hholds := hexpires.holds
    rwa [Controller.holds, Std.ExtTreeSet.contains_iff_mem] at hholds
  refine ⟨m, t, hfreed ▸ hexpires.passes, hbefore, ?_, freed, rfl, ?_⟩
  · have hgone := Controller.holds_expire_self m.controller t
    rwa [← Bool.not_eq_true, Controller.holds, Std.ExtTreeSet.contains_iff_mem] at hgone
  · rw [← hfreed]
    exact Controller.wouldFree_eq_true_iff

/-- **The log tells the life of each handle.** After every run, the lines that name a handle are, in
order, the beginning of a lifecycle: the call was given up, and that is all; or it was let in, and
the handle then released once, by its caller or by being dropped; and after that it expired once,
unless its linger goes beyond the last instant. A handle is in the table exactly from the line that
it was admitted to the line that it expired. And each line of a further step that says that a handle
expired stands for a ticket that leaves the table then, and says truly whether the entry goes with
it. -/
theorem log_tells_lifecycle (capacity : Capacity) (linger : Span) (steps : List Step) :
    let r := (new capacity linger).run steps
    (∀ k, let told := ((r.2.flatMap Answer.log).filter (·.isAbout k)).map LogLine.message
      (∃ life, Lifecycle life ∧ told <+: life) ∧
        ((∃ e, k ∈ r.1.controller.occupancy.ids e) ↔
          "Entry admitted" ∈ told ∧ "Handle expired" ∉ told)) ∧
      ∀ what, ∀ line ∈ (r.1.step what).2.log, line.message = "Handle expired" →
        ∃ m t, Removal r.1 what m t line := by
  intro r
  have hs : r.1.Orderly := (orderly_new capacity linger).run steps
  refine ⟨fun k => ?_, fun what line hline hmessage => ?_⟩
  · intro told
    have htells : r.1.Tells k told := by
      show r.1.Tells k (((r.2.flatMap Answer.log).filter (·.isAbout k)).map LogLine.message)
      rw [story_eq]
      exact tells_run capacity linger steps k
    refine ⟨?_, htells.mem_ids_iff hs⟩
    cases hw : r.1.waits[k]? with
    | none =>
      rw [htells.uncalled hw]
      exact ⟨_, .abandoned, List.nil_prefix⟩
    | some w => exact (htells.told w hw).exists_lifecycle
  · exact exists_removal capacity linger steps what hline hmessage

/-- A caller finishes its handle twice. The second time nothing happens, and the linger of one
millisecond ends when it would have. -/
example :
    let steps :=
      [.wait ⟨"udp", "l", "a"⟩ "" .standard "root" none, .finish 0, .finish 0, .advance 1]
    let lines := ((new (.limited 1) ⟨1000000⟩).run steps).2.flatMap Answer.log
    (lines.filter (·.isAbout 0)).map LogLine.message =
      ["Entry admitted", "Handle released", "Handle already released", "Handle expired"] := by
  intro steps lines
  rw [story_eq]
  decide_cbv

end Session

end Admission
