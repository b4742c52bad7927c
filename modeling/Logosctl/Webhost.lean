/-
# From the host to the page

The process between the daemon and a page passes on what comes in on the socket.  A message waits
in the bytes of an unfinished line, in the bridge until the page has connected, as a signal on its
way, in the page until its script installs a receiver, and as a callback of a timer; each of these
is emptied by an event of its own, and the events come in any order.

Nothing is lost, doubled or overtaken on the way (`conserved_of_run`): what was handed to
a receiver, followed by what waits at each of the places, is what arrived.  Once a receiver stays,
what waits is handed to it (`delivered_in_order`).
-/
import Logosctl.WebChannel

namespace Logosctl

open Library

/-! ## 1. The two ends -/

section Ends

variable {ρ τ : Type}

/-- `Bridge`, on the host. -/
structure Bridge (τ : Type) where
  pageReady : Bool := false
  backlog : List τ := []

namespace Bridge

/-- `deliverToPage`: with it the signals that are emitted. -/
def deliverToPage (b : Bridge τ) (text : τ) : Bridge τ × List τ :=
  if !b.pageReady then ({ b with backlog := b.backlog ++ [text] }, []) else (b, [text])

/-- `ready`. -/
def ready (b : Bridge τ) : Bridge τ × List τ :=
  if b.pageReady then (b, []) else ({ pageReady := true, backlog := [] }, b.backlog)

end Bridge

/-- The shim's variables, and the callbacks that `setTimeout` has queued, each with the receiver it
will call. -/
structure Shim (ρ τ : Type) where
  pending : List τ := []
  receiver : Option ρ := none
  timers : List (ρ × τ) := []

namespace Shim

def deliver (p : Shim ρ τ) (text : τ) : Shim ρ τ :=
  match p.receiver with
  | some cb => { p with timers := p.timers ++ [(cb, text)] }
  | none => { p with pending := p.pending ++ [text] }

def setReceiver (p : Shim ρ τ) (fn : Option ρ) : Shim ρ τ :=
  match fn with
  | none => { p with receiver := none }
  | some cb => p.pending.foldl deliver { p with receiver := some cb, pending := [] }

end Shim

/-! ## 2. One page load -/

/-- Both ends, the socket's inbox and what is under way: the signals to a page that has connected,
what the receivers were handed, and all bytes so far. -/
structure PageLoad (ρ τ : Type) where
  inbox : List UInt8 := []
  bridge : Bridge τ := {}
  connected : Bool := false
  signals : List τ := []
  page : Shim ρ τ := {}
  handed : List (ρ × τ) := []
  arrived : List UInt8 := []

inductive PageEvent (ρ : Type)
  | readyRead (chunk : List UInt8)
  /-- the page's handshake is done, and `deliver` connected -/
  | connect
  /-- the page's call of `ready` gets to the host -/
  | ready
  | signal
  | setReceiver (fn : Option ρ)
  | timer

namespace PageLoad

/-- A signal reaches a page that has connected, and otherwise nobody. -/
def emit (s : PageLoad ρ τ) (texts : List τ) : PageLoad ρ τ :=
  if s.connected then { s with signals := s.signals ++ texts } else s

/-- One line that was read. -/
def deliverToPage (s : PageLoad ρ τ) (text : τ) : PageLoad ρ τ :=
  let (bridge, emitted) := s.bridge.deliverToPage text
  { s with bridge }.emit emitted

/-- The slot on `readyRead`. -/
def readyRead (fromUtf8 : List UInt8 → τ) (s : PageLoad ρ τ) (chunk : List UInt8) :
    PageLoad ρ τ :=
  let (found, left) := takeLines newline (s.inbox ++ chunk)
  ((found.filter fun line => !line.isEmpty).map fromUtf8).foldl deliverToPage
    { s with inbox := left, arrived := s.arrived ++ chunk }

def next (fromUtf8 : List UInt8 → τ) (s : PageLoad ρ τ) : PageEvent ρ → Option (PageLoad ρ τ)
  | .readyRead chunk => some (s.readyRead fromUtf8 chunk)
  | .connect => if s.connected then none else some { s with connected := true }
  | .ready =>
    if s.connected then
      let (bridge, emitted) := s.bridge.ready
      some ({ s with bridge }.emit emitted)
    else none
  | .signal =>
    match s.signals with
    | [] => none
    | text :: signals => some { s with signals, page := s.page.deliver text }
  | .setReceiver fn => some { s with page := s.page.setReceiver fn }
  | .timer =>
    match s.page.timers with
    | [] => none
    | call :: timers => some { s with page := { s.page with timers }, handed := s.handed ++ [call] }

/-- The messages that are complete, as they are passed on. -/
def messages (fromUtf8 : List UInt8 → τ) (bytes : List UInt8) : List τ :=
  ((lines newline bytes).filter fun line => !line.isEmpty).map fromUtf8

/-- What waits, the one that came first in front. -/
def waiting (s : PageLoad ρ τ) : List τ :=
  s.page.timers.map Prod.snd ++ s.page.pending ++ s.signals ++ s.bridge.backlog

/-- **Nothing is lost, doubled or overtaken**, and what waits waits where it is fetched. -/
structure Conserved (fromUtf8 : List UInt8 → τ) (s : PageLoad ρ τ) : Prop where
  all : s.handed.map Prod.snd ++ s.waiting = messages fromUtf8 s.arrived
  inbox : s.inbox = unfinished newline s.arrived
  pending : s.page.receiver ≠ none → s.page.pending = []
  ready : s.bridge.pageReady = true → s.connected = true ∧ s.bridge.backlog = []

end PageLoad

/-! ## 3. One event -/

variable {fromUtf8 : List UInt8 → τ} {s s' : PageLoad ρ τ} {e : PageEvent ρ}

theorem Shim.deliver_receiver (p : Shim ρ τ) (text : τ) :
    (p.deliver text).receiver = p.receiver := by
  unfold deliver
  split <;> rfl

/-- With a receiver, every text becomes a callback. -/
theorem Shim.foldl_deliver {cb : ρ} (texts : List τ) {p : Shim ρ τ} (h : p.receiver = some cb) :
    texts.foldl deliver p = { p with timers := p.timers ++ texts.map fun t => (cb, t) } := by
  induction texts generalizing p with
  | nil => simp
  | cons text texts ih =>
    have hone : p.deliver text = { p with timers := p.timers ++ [(cb, text)] } := by
      simp only [deliver, h]
    rw [List.foldl_cons, hone, ih (by exact h), List.map_cons, List.append_assoc,
      List.singleton_append]

namespace PageLoad

/-- What is read goes behind all that waits: to the backlog, or out as signals. -/
theorem foldl_deliverToPage (texts : List τ)
    (h : s.bridge.pageReady = true → s.connected = true ∧ s.bridge.backlog = []) :
    ∃ signals backlog,
      texts.foldl deliverToPage s =
        { s with signals, bridge := { s.bridge with backlog } } ∧
      signals ++ backlog = s.signals ++ s.bridge.backlog ++ texts ∧
      (s.bridge.pageReady = true → backlog = []) := by
  induction texts generalizing s with
  | nil => exact ⟨s.signals, s.bridge.backlog, rfl, (List.append_nil _).symm, fun hr => (h hr).2⟩
  | cons text texts ih =>
    cases hready : s.bridge.pageReady with
    | false =>
      have hone : s.deliverToPage text =
          { s with bridge := { s.bridge with backlog := s.bridge.backlog ++ [text] } } := by
        simp [deliverToPage, Bridge.deliverToPage, hready, emit]
      obtain ⟨signals, backlog, hfold, hall, -⟩ :=
        @ih { s with bridge := { s.bridge with backlog := s.bridge.backlog ++ [text] } }
          (fun hr => absurd (hready.symm.trans hr) Bool.false_ne_true)
      refine ⟨signals, backlog, ?_, ?_, nofun⟩
      · rw [List.foldl_cons, hone, hfold]
      · rw [hall]
        simp
    | true =>
      obtain ⟨hconnected, hempty⟩ := h hready
      have hone : s.deliverToPage text = { s with signals := s.signals ++ [text] } := by
        simp [deliverToPage, Bridge.deliverToPage, hready, emit, hconnected]
      obtain ⟨signals, backlog, hfold, hall, hnone⟩ :=
        @ih { s with signals := s.signals ++ [text] } h
      refine ⟨signals, backlog, ?_, ?_, fun _ => hnone hready⟩
      · rw [List.foldl_cons, hone, hfold]
      · rw [hall, hempty]
        simp

theorem readyRead_eq (fromUtf8 : List UInt8 → τ) (s : PageLoad ρ τ) (chunk : List UInt8) :
    s.readyRead fromUtf8 chunk = (messages fromUtf8 (s.inbox ++ chunk)).foldl deliverToPage
      { s with
        inbox := unfinished newline (s.inbox ++ chunk)
        arrived := s.arrived ++ chunk } := by
  rw [readyRead, takeLines_eq, messages]

/-- A line is complete once, whatever the pieces. -/
theorem messages_append (fromUtf8 : List UInt8 → τ) (a b : List UInt8) :
    messages fromUtf8 (a ++ b) =
      messages fromUtf8 a ++ messages fromUtf8 (unfinished newline a ++ b) := by
  rw [messages, (lines_append a b).1, List.filter_append, List.map_append, messages, messages]

/-- The first call of `ready` lets the backlog go. -/
theorem next_ready (hconnected : s.connected = true) (hr : s.bridge.pageReady = false) :
    s.next fromUtf8 .ready =
      some { s with bridge := ⟨true, []⟩, signals := s.signals ++ s.bridge.backlog } := by
  simp [PageLoad.next, Bridge.ready, emit, hconnected, hr]

/-- Another one does nothing. -/
theorem next_ready_again (hconnected : s.connected = true) (hr : s.bridge.pageReady = true) :
    s.next fromUtf8 .ready = some s := by
  have hsame : s.bridge.ready = (s.bridge, []) := if_pos hr
  simp only [PageLoad.next, if_pos hconnected, hsame, emit, List.append_nil]

theorem conserved_init : Conserved fromUtf8 ({} : PageLoad ρ τ) where
  all := rfl
  inbox := rfl
  pending _ := rfl
  ready := nofun

/-- **Every event conserves the messages.** -/
theorem Conserved.next (h : Conserved fromUtf8 s) (hstep : s.next fromUtf8 e = some s') :
    Conserved fromUtf8 s' := by
  obtain ⟨hall, hinbox, hpending, hready⟩ := h
  cases e with
  | readyRead chunk =>
    obtain ⟨hlines, hleft⟩ := @lines_append _ _ _ newline s.arrived chunk
    cases hstep
    obtain ⟨signals, backlog, hfold, hqueue, hnone⟩ := @foldl_deliverToPage ρ τ
      { s with inbox := unfinished newline (s.inbox ++ chunk), arrived := s.arrived ++ chunk }
      (messages fromUtf8 (s.inbox ++ chunk)) hready
    rw [readyRead_eq, hfold]
    refine ⟨?_, ?_, hpending, fun hr => ⟨(hready hr).1, hnone hr⟩⟩
    · have hbehind : messages fromUtf8 (s.arrived ++ chunk) =
          s.handed.map Prod.snd ++ s.waiting ++ messages fromUtf8 (s.inbox ++ chunk) := by
        rw [messages_append, hall, hinbox]
      rw [hbehind]
      simp only [waiting, List.append_assoc] at hqueue ⊢
      rw [hqueue]
    · rw [hleft, hinbox]
  | connect =>
    simp only [PageLoad.next] at hstep
    split at hstep
    · cases hstep
    · cases hstep
      exact ⟨hall, hinbox, hpending, fun hr => ⟨rfl, (hready hr).2⟩⟩
  | ready =>
    cases hconnected : s.connected with
    | false =>
      simp only [PageLoad.next, hconnected, Bool.false_eq_true, if_false] at hstep
      cases hstep
    | true =>
      cases hr : s.bridge.pageReady with
      | true =>
        rw [next_ready_again hconnected hr] at hstep
        cases hstep
        exact ⟨hall, hinbox, hpending, hready⟩
      | false =>
        rw [next_ready hconnected hr] at hstep
        cases hstep
        refine ⟨hall ▸ ?_, hinbox, hpending, fun _ => ⟨hconnected, rfl⟩⟩
        simp [waiting]
  | signal =>
    simp only [PageLoad.next] at hstep
    split at hstep
    · cases hstep
    · next text signals hsignals =>
      cases hstep
      cases hreceiver : s.page.receiver with
      | none =>
        have hpage : s.page.deliver text =
            { s.page with pending := s.page.pending ++ [text] } := by
          simp only [Shim.deliver, hreceiver]
        rw [hpage]
        refine ⟨hall ▸ ?_, hinbox, fun hne => absurd hreceiver hne, hready⟩
        simp [waiting, hsignals]
      | some cb =>
        have hpage : s.page.deliver text =
            { s.page with timers := s.page.timers ++ [(cb, text)] } := by
          simp only [Shim.deliver, hreceiver]
        have hnone := hpending (by simp [hreceiver])
        rw [hpage]
        refine ⟨hall ▸ ?_, hinbox, fun _ => hnone, hready⟩
        simp [waiting, hsignals, hnone]
  | setReceiver fn =>
    cases hstep
    cases fn with
    | none => exact ⟨hall, hinbox, fun hne => absurd rfl hne, hready⟩
    | some cb =>
      have hpage : s.page.setReceiver (some cb) =
          ⟨[], some cb, s.page.timers ++ s.page.pending.map fun t => (cb, t)⟩ := by
        rw [Shim.setReceiver, Shim.foldl_deliver s.page.pending rfl]
      rw [hpage]
      refine ⟨hall ▸ ?_, hinbox, fun _ => rfl, hready⟩
      simp [waiting, Function.comp_def]
  | timer =>
    simp only [PageLoad.next] at hstep
    split at hstep
    · cases hstep
    · next call timers htimers =>
      cases hstep
      refine ⟨hall ▸ ?_, hinbox, hpending, hready⟩
      simp [waiting, htimers]

/-! ## 4. Whole loads -/

/-- The loads that some order of events leads to. -/
abbrev Run (fromUtf8 : List UInt8 → τ) : PageLoad ρ τ → Prop :=
  Reaches (fun s e s' => s.next fromUtf8 e = some s') (fun _ _ => True) {}

theorem conserved_of_run (h : Run fromUtf8 s) : Conserved fromUtf8 s :=
  h.invariant conserved_init fun hs _ hnext => hs.next hnext

/-- An event that only passes on what waits. -/
def PassesOn : PageEvent ρ → Prop
  | .ready | .signal | .timer => True
  | .readyRead _ | .connect | .setReceiver _ => False

/-- Going on without a new arrival or another receiver. -/
abbrev GoesOn (fromUtf8 : List UInt8 → τ) : PageLoad ρ τ → PageLoad ρ τ → Prop :=
  Reaches (fun s e s' => s.next fromUtf8 e = some s') fun _ e => PassesOn e

/-- Passing on changes neither the receiver nor what has arrived. -/
theorem keeps_of_passesOn (h : PassesOn e) (hnext : s.next fromUtf8 e = some s') :
    s'.page.receiver = s.page.receiver ∧ s'.arrived = s.arrived := by
  cases e with
  | ready =>
    simp only [PageLoad.next] at hnext
    split at hnext
    · cases hnext
      unfold emit
      split <;> exact ⟨rfl, rfl⟩
    · cases hnext
  | signal =>
    simp only [PageLoad.next] at hnext
    split at hnext
    · cases hnext
    · cases hnext
      exact ⟨Shim.deliver_receiver .., rfl⟩
  | timer =>
    simp only [PageLoad.next] at hnext
    split at hnext
    · cases hnext
    · cases hnext
      exact ⟨rfl, rfl⟩
  | readyRead chunk => cases h
  | connect => cases h
  | setReceiver fn => cases h

/-- Nothing is left that could be passed on. -/
structure Settled (s : PageLoad ρ τ) : Prop where
  ready : s.bridge.pageReady = true
  signals : s.signals = []
  timers : s.page.timers = []

/-- With a receiver and nothing left, everything has been handed over. -/
theorem Conserved.handed_of_settled (h : Conserved fromUtf8 s) (hreceiver : s.page.receiver ≠ none)
    (hsettled : Settled s) : s.handed.map Prod.snd = messages fromUtf8 s.arrived := by
  have hnone : s.waiting = [] := by
    simp [waiting, hsettled.signals, hsettled.timers, h.pending hreceiver,
      (h.ready hsettled.ready).2]
  rw [← h.all, hnone, List.append_nil]

/-- The host hears that the page is ready. -/
theorem exists_ready (hconnected : s.connected = true) : ∃ s', GoesOn fromUtf8 s s' ∧
    s'.bridge.pageReady = true ∧ s'.page = s.page ∧ s'.arrived = s.arrived := by
  cases hr : s.bridge.pageReady with
  | true => exact ⟨s, .refl, hr, rfl, rfl⟩
  | false =>
    exact ⟨_, Reaches.refl.tail (a := .ready) trivial (next_ready hconnected hr), rfl, rfl, rfl⟩

/-- The signals arrive. -/
theorem exists_no_signals : ∃ s', GoesOn fromUtf8 s s' ∧
    s'.signals = [] ∧ s'.bridge = s.bridge ∧ s'.page.receiver = s.page.receiver ∧
      s'.arrived = s.arrived := by
  generalize hsignals : s.signals = signals
  induction signals generalizing s with
  | nil => exact ⟨s, .refl, hsignals, rfl, rfl, rfl⟩
  | cons text signals ih =>
    have hnext : s.next fromUtf8 .signal =
        some { s with signals, page := s.page.deliver text } := by
      simp only [PageLoad.next, hsignals]
    obtain ⟨s', hrun, hnone, hbridge, hsame, harrived⟩ :=
      @ih { s with signals, page := s.page.deliver text } rfl
    exact ⟨s', (Reaches.refl.tail (a := .signal) trivial hnext).trans hrun, hnone, hbridge,
      hsame.trans (Shim.deliver_receiver ..), harrived⟩

/-- The timers fire. -/
theorem exists_no_timers : ∃ s', GoesOn fromUtf8 s s' ∧
    s'.page.timers = [] ∧ s'.signals = s.signals ∧ s'.bridge = s.bridge ∧
      s'.page.receiver = s.page.receiver ∧ s'.arrived = s.arrived := by
  generalize htimers : s.page.timers = timers
  induction timers generalizing s with
  | nil => exact ⟨s, .refl, htimers, rfl, rfl, rfl, rfl⟩
  | cons call timers ih =>
    have hnext : s.next fromUtf8 .timer =
        some { s with page := { s.page with timers }, handed := s.handed ++ [call] } := by
      simp only [PageLoad.next, htimers]
    obtain ⟨s', hrun, hnone, hsignals, hbridge, hsame, harrived⟩ :=
      @ih { s with page := { s.page with timers }, handed := s.handed ++ [call] } rfl
    exact ⟨s', (Reaches.refl.tail (a := .timer) trivial hnext).trans hrun, hnone, hsignals, hbridge,
      hsame, harrived⟩

/-- What waits can be passed on to the end. -/
theorem exists_settled (hconnected : s.connected = true) : ∃ s', GoesOn fromUtf8 s s' ∧
    Settled s' ∧ s'.page.receiver = s.page.receiver ∧ s'.arrived = s.arrived := by
  obtain ⟨s₁, hrun₁, hready, hpage, harrived₁⟩ := @exists_ready _ _ fromUtf8 s hconnected
  obtain ⟨s₂, hrun₂, hsignals, hbridge₂, hreceiver₂, harrived₂⟩ :=
    @exists_no_signals _ _ fromUtf8 s₁
  obtain ⟨s₃, hrun₃, htimers, hsignals₃, hbridge₃, hreceiver₃, harrived₃⟩ :=
    @exists_no_timers _ _ fromUtf8 s₂
  refine ⟨s₃, (hrun₁.trans hrun₂).trans hrun₃, ⟨?_, hsignals₃.trans hsignals, htimers⟩, ?_, ?_⟩
  · rw [hbridge₃, hbridge₂, hready]
  · rw [hreceiver₃, hreceiver₂, hpage]
  · rw [harrived₃, harrived₂, harrived₁]

/-- Of messages written line by line, the first so many have arrived. -/
theorem messages_prefix {ms : List (List UInt8)} (hms : ∀ m ∈ ms, m ≠ [] ∧ newline ∉ m)
    {bytes : List UInt8} (h : bytes <+: joinLines newline ms) :
    messages fromUtf8 bytes <+: ms.map fromUtf8 := by
  obtain ⟨later, hlater⟩ := h
  have hall : messages fromUtf8 (joinLines newline ms) = ms.map fromUtf8 := by
    have hlines := (lines_joinLines (fun m hm => (hms m hm).2) []).1
    rw [List.append_nil, (lines_of_notMem List.not_mem_nil).1, List.append_nil] at hlines
    have hkept : ms.filter (fun m => !m.isEmpty) = ms := by
      rw [List.filter_eq_self]
      intro m hm
      simpa using (hms m hm).1
    rw [messages, hlines, hkept]
  rw [← hall, ← hlater, messages_append]
  exact List.prefix_append _ _

/-- **Delivery to the page is exactly once and in order.**  Whatever the order of events: what the
receivers were handed, followed by what waits, is the messages that have arrived, so each is handed
over at most once and none before an earlier one; these are the first messages the host wrote, in
whatever pieces they came; and with a receiver that stays, on a page that has connected, they can
all be passed on, and are once nothing is left to pass on. -/
theorem delivered_in_order (h : Run fromUtf8 s) :
    s.handed.map Prod.snd ++ s.waiting = messages fromUtf8 s.arrived ∧
      (∀ ms : List (List UInt8), (∀ m ∈ ms, m ≠ [] ∧ newline ∉ m) →
        s.arrived <+: joinLines newline ms →
        messages fromUtf8 s.arrived <+: ms.map fromUtf8) ∧
      (s.page.receiver ≠ none → s.connected = true →
        (∃ s', GoesOn fromUtf8 s s' ∧ Settled s') ∧
          ∀ s', GoesOn fromUtf8 s s' → Settled s' →
            s'.handed.map Prod.snd = messages fromUtf8 s.arrived) := by
  have hconserved := conserved_of_run h
  refine ⟨hconserved.all, fun ms hms => messages_prefix hms, fun hreceiver hconnected => ⟨?_, ?_⟩⟩
  · obtain ⟨s', hrun, hsettled, -⟩ := @exists_settled _ _ fromUtf8 s hconnected
    exact ⟨s', hrun, hsettled⟩
  · intro s' hrun hsettled
    have hkept : Conserved fromUtf8 s' ∧ s'.page.receiver ≠ none ∧ s'.arrived = s.arrived := by
      refine hrun.invariant (I := fun t => Conserved fromUtf8 t ∧ t.page.receiver ≠ none ∧
        t.arrived = s.arrived) ⟨hconserved, hreceiver, rfl⟩ ?_
      rintro t t' e ⟨ht, hset, harrived⟩ hpasses hnext
      obtain ⟨hset', harrived'⟩ := keeps_of_passesOn hpasses hnext
      exact ⟨ht.next hnext, hset'.symm ▸ hset, harrived'.trans harrived⟩
    rw [← hkept.2.2]
    exact hkept.1.handed_of_settled hkept.2.1 hsettled

end PageLoad

end Ends

/-- A message before the page has connected, and before it has a receiver. -/
def early : List (PageEvent Unit) :=
  [.readyRead [123, 125, 10], .connect, .ready, .signal, .setReceiver (some ()), .timer]

/-- It is handed over in the end. -/
theorem early_handed : ∃ s : PageLoad Unit (List UInt8),
    runActions (PageLoad.next id) {} early = some s ∧ s.handed.map Prod.snd = [[123, 125]] := by
  have hread : (({} : PageLoad Unit (List UInt8)).readyRead id [123, 125, 10]) =
      { bridge := ⟨false, [[123, 125]]⟩, arrived := [123, 125, 10] } := by
    rw [PageLoad.readyRead_eq]
    rfl
  have hrun : runActions (PageLoad.next id) {} early =
      some { bridge := ⟨true, []⟩, connected := true, page := ⟨[], some (), []⟩,
             handed := [((), [123, 125])], arrived := [123, 125, 10] } := by
    rw [early, runActions, PageLoad.next, hread]
    rfl
  have hlaw := PageLoad.delivered_in_order (runActions_reaches early .refl hrun)
  have hall := (hlaw.2.2 (by simp) rfl).2 _ .refl ⟨rfl, rfl, rfl⟩
  exact ⟨_, hrun, hall.trans (by decide)⟩

end Logosctl
