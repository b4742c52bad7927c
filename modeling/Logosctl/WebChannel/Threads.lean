/-
# The threads at a channel

A channel to a page is read by a thread of its own, the pump, while any number of others send on it,
put another receiver in and close it.  Two of its three mutexes are held across a call that waits:
`mu` across a `send`, and `m_pumpMu` across the `join` that waits for the pump.  A receiver runs on
the pump, and may close the channel itself, since a thread cannot join itself the pump is then
detached.

In every order of steps the descriptor is closed once, by the pump, and is not touched afterwards
(`descriptor_of_run`); who has taken a receiver out is not overtaken by a line that is still under
way (`handed_to_receiver`).  A `close` can return unless the pump is itself in `close` while another
thread, which has `m_pumpMu`, waits for the pump to end (`close_returns_iff`).
-/
import Logosctl.WebChannel
import Mathlib.Data.List.Sublists
import Mathlib.Data.List.TakeWhile
import Mathlib.Logic.Function.Basic

namespace Logosctl

open Library

/-! ## 1. The threads and what they share -/

/-- The pump of the channel, or another thread that uses it. -/
inductive Thread
  | pump
  | user (n : Nat)
  deriving DecidableEq

/-- Where a thread is in `SocketChannel::shutdown`. -/
inductive Closing
  | no
  /-- the descriptor is shut down, and `m_pumpMu` is to be taken -/
  | locking
  /-- it has `m_pumpMu`, and waits for the pump to end -/
  | joining
  deriving DecidableEq

/-- Where the pump is. -/
inductive PumpAt (ρ : Type)
  | top
  | receiving
  /-- it looks for a line in the inbox -/
  | scanning
  | delivering (cb : ρ)
  /-- out of the loop -/
  | leaving
  /-- the descriptor is closed, and `onEof` runs -/
  | ended
  | done

/-- `m_pump`. -/
inductive PumpThread
  | joinable
  | joined
  | detached
  deriving DecidableEq

/-- A system call on the descriptor. -/
inductive FdCall
  | recv
  | send
  | shutdown
  | close
  deriving DecidableEq

/-- `SocketChannel` and the state that it shares with its pump, once it is started.  With it the
calls on the descriptor so far, what has arrived, and which receiver was handed which line. -/
structure SocketChannel (ρ : Type) where
  closed : Bool := false
  hasFd : Bool := true
  /-- who has `mu`, across a `send` -/
  sending : Option Thread := none
  receiver : Option ρ := none
  /-- who has `m_pumpMu`, across a `join` -/
  holder : Option Thread := none
  thread : PumpThread := .joinable
  pump : PumpAt ρ := .top
  inbox : List UInt8 := []
  closing : Thread → Closing := fun _ => .no
  calls : List FdCall := []
  arrived : List UInt8 := []
  handed : List (ρ × List UInt8) := []

/-- A step of a thread. -/
inductive ChannelStep (ρ : Type)
  | look
  | recv (answer : SocketState.RecvAnswer)
  | scan
  | receiverReturns
  | leave
  | eofReturns
  | setReceiver (t : Thread) (cb : Option ρ)
  | write (t : Thread)
  /-- the loop of a write sends more of its frame -/
  | sendMore (t : Thread)
  | writeReturns (t : Thread)
  | shutdownFd (t : Thread)
  | lock (t : Thread)
  | join (t : Thread)

/-- The first line of the inbox, and what is behind it. -/
def cutLine (inbox : List UInt8) : Option (List UInt8 × List UInt8) :=
  match inbox.dropWhile (· != newline) with
  | [] => none
  | _ :: rest => some (inbox.takeWhile (· != newline), rest)

namespace SocketChannel

variable {ρ : Type}

/-- The pump runs what was given to it: a receiver, or `onEof`. -/
def calledBack (s : SocketChannel ρ) : Bool :=
  match s.pump with
  | .delivering _ | .ended => true
  | _ => false

/-- A thread that is in none of the channel's functions, and so may call one. -/
def atLiberty (s : SocketChannel ρ) (t : Thread) : Bool :=
  s.closing t = .no && s.sending ≠ some t && (t ≠ .pump || s.calledBack)

/-- The body of the inner loop of `pump`: a line is taken out, and handed over unless it is empty or
there is no receiver. -/
def scan (s : SocketChannel ρ) : SocketChannel ρ :=
  match cutLine s.inbox with
  | none => { s with pump := .top }
  | some (line, inbox) =>
    match line, s.receiver with
    | [], _ | _, none => { s with inbox }
    | line, some cb =>
      { s with inbox, pump := .delivering cb, handed := s.handed ++ [(cb, line)] }

/-- `shutdownFd`, on the way to `m_pumpMu`. -/
def shutdownFd (s : SocketChannel ρ) (t : Thread) : SocketChannel ρ :=
  { s with
    closing := Function.update s.closing t .locking
    closed := true
    calls := s.calls ++ if !s.closed && s.hasFd then [.shutdown] else [] }

/-- With `m_pumpMu` in hand: there is nothing to join, the pump cannot join itself, or the pump is
waited for. -/
def lock (s : SocketChannel ρ) (t : Thread) : SocketChannel ρ :=
  if s.thread ≠ .joinable then { s with closing := Function.update s.closing t .no }
  else if t = .pump then
    { s with closing := Function.update s.closing t .no, thread := .detached }
  else { s with closing := Function.update s.closing t .joining, holder := some t }

def next (s : SocketChannel ρ) : ChannelStep ρ → Option (SocketChannel ρ)
  | .look =>
    match s.pump, s.sending with
    | .top, none =>
      if s.closed || !s.hasFd then some { s with pump := .leaving }
      else some { s with pump := .receiving, calls := s.calls ++ [.recv] }
    | _, _ => none
  | .recv answer =>
    match s.pump, answer with
    | .receiving, .data chunk =>
      some { s with
        pump := .scanning, inbox := s.inbox ++ chunk, arrived := s.arrived ++ chunk }
    | .receiving, .interrupted => some { s with pump := .top }
    | .receiving, .ended => some { s with pump := .leaving }
    | _, _ => none
  | .scan =>
    match s.pump with
    | .scanning => some s.scan
    | _ => none
  | .receiverReturns =>
    match s.pump with
    | .delivering _ => if s.atLiberty .pump then some { s with pump := .scanning } else none
    | _ => none
  | .leave =>
    match s.pump, s.sending with
    | .leaving, none =>
      some { s with
        pump := .ended
        closed := true
        hasFd := false
        calls := s.calls ++ if s.hasFd then [.close] else [] }
    | _, _ => none
  | .eofReturns =>
    match s.pump with
    | .ended => if s.atLiberty .pump then some { s with pump := .done } else none
    | _ => none
  | .setReceiver t cb =>
    match s.pump with
    -- `receiverMu` is the pump's, which may take it again
    | .delivering _ =>
      if t = .pump && s.atLiberty t then some { s with receiver := cb } else none
    | _ => if s.atLiberty t then some { s with receiver := cb } else none
  | .write t =>
    if s.sending = none && s.atLiberty t then
      if s.closed || !s.hasFd then some s
      else some { s with sending := some t, calls := s.calls ++ [.send] }
    else none
  | .sendMore t =>
    if s.sending = some t then some { s with calls := s.calls ++ [.send] } else none
  | .writeReturns t => if s.sending = some t then some { s with sending := none } else none
  | .shutdownFd t => if s.sending = none && s.atLiberty t then some (s.shutdownFd t) else none
  | .lock t => if s.closing t = .locking && s.holder = none then some (s.lock t) else none
  | .join t =>
    match s.closing t, s.pump with
    | .joining, .done =>
      some { s with
        closing := Function.update s.closing t .no, holder := none, thread := .joined }
    | _, _ => none

def isOpen (s : SocketChannel ρ) : Bool := !s.closed

/-- The states that some order of steps leads to, from a channel that has been started. -/
abbrev Run : SocketChannel ρ → Prop :=
  Reaches (fun s a s' => s.next a = some s') (fun _ _ => True) {}

/-- What can come after `s`. -/
abbrev GoesOn : SocketChannel ρ → SocketChannel ρ → Prop :=
  Reaches (fun s a s' => s.next a = some s') fun _ _ => True

/-- **Nobody can go on**: the pump is in `close`, and whoever has `m_pumpMu` waits for the pump. -/
def Deadlocked (s : SocketChannel ρ) : Prop :=
  s.closing .pump = .locking ∧ ∃ t, s.closing t = .joining

/-! ## 2. What a step does -/

/-- **Each step, by what it finds and what it changes.** -/
inductive Does (s : SocketChannel ρ) : ChannelStep ρ → SocketChannel ρ → Prop
  | looksOut (hpump : s.pump = .top) (hclosed : (s.closed || !s.hasFd) = true) :
    Does s .look { s with pump := .leaving }
  | receives (hpump : s.pump = .top) (hopen : s.hasFd = true) :
    Does s .look { s with pump := .receiving, calls := s.calls ++ [.recv] }
  | gets {chunk : List UInt8} (hpump : s.pump = .receiving) :
    Does s (.recv (.data chunk))
      { s with pump := .scanning, inbox := s.inbox ++ chunk, arrived := s.arrived ++ chunk }
  | interrupted (hpump : s.pump = .receiving) : Does s (.recv .interrupted) { s with pump := .top }
  | ends (hpump : s.pump = .receiving) : Does s (.recv .ended) { s with pump := .leaving }
  | noLine (hpump : s.pump = .scanning) (hline : cutLine s.inbox = none) :
    Does s .scan { s with pump := .top }
  | skips {line inbox : List UInt8} (hpump : s.pump = .scanning)
      (hline : cutLine s.inbox = some (line, inbox)) :
    Does s .scan { s with inbox }
  | hands {line inbox : List UInt8} {cb : ρ} (hpump : s.pump = .scanning)
      (hline : cutLine s.inbox = some (line, inbox)) (hfull : line ≠ [])
      (hreceiver : s.receiver = some cb) :
    Does s .scan { s with inbox, pump := .delivering cb, handed := s.handed ++ [(cb, line)] }
  | receiverReturns {cb : ρ} (hpump : s.pump = .delivering cb)
      (hliberty : s.atLiberty .pump = true) :
    Does s .receiverReturns { s with pump := .scanning }
  | leaves (hpump : s.pump = .leaving) (hfree : s.sending = none) :
    Does s .leave { s with
      pump := .ended
      closed := true
      hasFd := false
      calls := s.calls ++ if s.hasFd then [.close] else [] }
  | eofReturns (hpump : s.pump = .ended) (hliberty : s.atLiberty .pump = true) :
    Does s .eofReturns { s with pump := .done }
  | setReceiver {t : Thread} {cb : Option ρ}
      (hlock : t = .pump ∨ ∀ cb', s.pump ≠ .delivering cb') :
    Does s (.setReceiver t cb) { s with receiver := cb }
  | refuses {t : Thread} : Does s (.write t) s
  | sends {t : Thread} (hopen : s.hasFd = true) (hliberty : s.atLiberty t = true) :
    Does s (.write t) { s with sending := some t, calls := s.calls ++ [.send] }
  | sendsMore {t : Thread} (hsending : s.sending = some t) :
    Does s (.sendMore t) { s with calls := s.calls ++ [.send] }
  | sent {t : Thread} (hsending : s.sending = some t) :
    Does s (.writeReturns t) { s with sending := none }
  | shutsDown {t : Thread} (hfree : s.sending = none) (hliberty : s.atLiberty t = true) :
    Does s (.shutdownFd t) (s.shutdownFd t)
  | nothingToJoin {t : Thread} (hlocking : s.closing t = .locking) (hfree : s.holder = none)
      (hthread : s.thread ≠ .joinable) :
    Does s (.lock t) { s with closing := Function.update s.closing t .no }
  | detaches (hlocking : s.closing .pump = .locking) (hfree : s.holder = none) :
    Does s (.lock .pump)
      { s with closing := Function.update s.closing .pump .no, thread := .detached }
  | waits {t : Thread} (hlocking : s.closing t = .locking) (hfree : s.holder = none)
      (hthread : s.thread = .joinable) (hother : t ≠ .pump) :
    Does s (.lock t)
      { s with closing := Function.update s.closing t .joining, holder := some t }
  | joins {t : Thread} (hjoining : s.closing t = .joining) (hdone : s.pump = .done) :
    Does s (.join t)
      { s with closing := Function.update s.closing t .no, holder := none, thread := .joined }

section Steps

variable {s s' : SocketChannel ρ} {a : ChannelStep ρ} {t u : Thread}

theorem does_scan (hpump : s.pump = .scanning) : Does s .scan s.scan := by
  unfold scan
  split
  · next hline => exact .noLine hpump hline
  · next line inbox hline =>
    split
    · exact .skips hpump hline
    · exact .skips hpump hline
    · next hfull hreceiver => exact .hands hpump hline (fun heq => by simp [heq] at hfull) hreceiver

theorem does_lock (hlocking : s.closing t = .locking) (hfree : s.holder = none) :
    Does s (.lock t) (s.lock t) := by
  unfold lock
  split
  · next hthread => exact .nothingToJoin hlocking hfree hthread
  · next hthread =>
    split
    · next heq =>
      subst heq
      exact .detaches hlocking hfree
    · next hother => exact .waits hlocking hfree (not_not.mp hthread) hother

theorem next_does (h : s.next a = some s') : Does s a s' := by
  cases a with
  | look =>
    simp only [next] at h
    split at h
    · next hpump _ =>
      split at h
      · next hclosed =>
        cases h
        exact .looksOut hpump hclosed
      · next hopen =>
        rw [Bool.not_eq_true, Bool.or_eq_false_iff, Bool.not_eq_false'] at hopen
        cases h
        exact .receives hpump hopen.2
    · cases h
  | recv answer =>
    simp only [next] at h
    split at h
    · next hpump =>
      cases h
      exact .gets hpump
    · next hpump =>
      cases h
      exact .interrupted hpump
    · next hpump =>
      cases h
      exact .ends hpump
    · cases h
  | scan =>
    simp only [next] at h
    split at h
    · next hpump =>
      cases h
      exact does_scan hpump
    · cases h
  | receiverReturns =>
    simp only [next] at h
    split at h
    · next hpump =>
      simp only [Option.ite_none_right_eq_some, Option.some.injEq] at h
      obtain ⟨hliberty, rfl⟩ := h
      exact .receiverReturns hpump hliberty
    · cases h
  | leave =>
    simp only [next] at h
    split at h
    · next hpump hfree =>
      cases h
      exact .leaves hpump hfree
    · cases h
  | eofReturns =>
    simp only [next] at h
    split at h
    · next hpump =>
      simp only [Option.ite_none_right_eq_some, Option.some.injEq] at h
      obtain ⟨hliberty, rfl⟩ := h
      exact .eofReturns hpump hliberty
    · cases h
  | setReceiver t cb =>
    simp only [next] at h
    split at h
    · simp only [Option.ite_none_right_eq_some, Option.some.injEq, Bool.and_eq_true,
        decide_eq_true_eq] at h
      obtain ⟨⟨hpump, -⟩, rfl⟩ := h
      exact .setReceiver (Or.inl hpump)
    · next hpump =>
      simp only [Option.ite_none_right_eq_some, Option.some.injEq] at h
      obtain ⟨-, rfl⟩ := h
      exact .setReceiver (Or.inr hpump)
  | write t =>
    simp only [next] at h
    split at h
    · next hguard =>
      rw [Bool.and_eq_true] at hguard
      split at h
      · cases h
        exact .refuses
      · next hopen =>
        rw [Bool.not_eq_true, Bool.or_eq_false_iff, Bool.not_eq_false'] at hopen
        cases h
        exact .sends hopen.2 hguard.2
    · cases h
  | sendMore t =>
    simp only [next, Option.ite_none_right_eq_some, Option.some.injEq] at h
    obtain ⟨hsending, rfl⟩ := h
    exact .sendsMore hsending
  | writeReturns t =>
    simp only [next, Option.ite_none_right_eq_some, Option.some.injEq] at h
    obtain ⟨hsending, rfl⟩ := h
    exact .sent hsending
  | shutdownFd t =>
    simp only [next, Option.ite_none_right_eq_some, Option.some.injEq, Bool.and_eq_true,
      decide_eq_true_eq] at h
    obtain ⟨⟨hfree, hliberty⟩, rfl⟩ := h
    exact .shutsDown hfree hliberty
  | lock t =>
    simp only [next, Option.ite_none_right_eq_some, Option.some.injEq, Bool.and_eq_true,
      decide_eq_true_eq] at h
    obtain ⟨⟨hlocking, hfree⟩, rfl⟩ := h
    exact does_lock hlocking hfree
  | join t =>
    simp only [next] at h
    split at h
    · next hjoining hdone =>
      cases h
      exact .joins hjoining hdone
    · cases h

/-! ## 3. What every step keeps -/

/-- The pump has closed the descriptor. -/
def finished (s : SocketChannel ρ) : Bool :=
  match s.pump with
  | .ended | .done => true
  | _ => false

/-- Who has which mutex, who closes the descriptor, and who may be where. -/
structure Sound (s : SocketChannel ρ) : Prop where
  fd : s.hasFd = !s.finished
  closed : s.hasFd = false → s.closed = true
  calls : if s.hasFd then .close ∉ s.calls
    else ∃ before, s.calls = before ++ [.close] ∧ .close ∉ before
  sending : ∀ t, s.sending = some t → s.hasFd = true ∧ s.closing t = .no ∧
    (t = .pump → s.calledBack = true)
  holder : ∀ t, s.holder = some t ↔ s.closing t = .joining
  joining : ∀ t, s.closing t = .joining → s.thread = .joinable ∧ t ≠ .pump
  pump : s.closing .pump ≠ .no → s.calledBack = true
  closing : ∀ t, s.closing t ≠ .no → s.closed = true
  joined : s.thread = .joined → s.pump = .done

theorem sound_init : Sound ({} : SocketChannel ρ) where
  fd := rfl
  closed := nofun
  calls := List.not_mem_nil
  sending := nofun
  holder _ := iff_of_false nofun nofun
  joining := nofun
  pump h := absurd rfl h
  closing _ h := absurd rfl h
  joined := nofun

/-- The pump is in none of the channel's functions where it runs nothing that was given to it. -/
theorem Sound.quiet (h : Sound s) (hback : s.calledBack = false) :
    s.closing .pump = .no ∧ s.sending ≠ some .pump := by
  constructor
  · by_contra hno
    rw [h.pump hno] at hback
    cases hback
  · intro hsending
    rw [(h.sending _ hsending).2.2 rfl] at hback
    cases hback

theorem quiet_of_atLiberty (h : s.atLiberty t = true) : s.closing t = .no ∧ s.sending ≠ some t := by
  simp only [atLiberty, Bool.and_eq_true, decide_eq_true_eq] at h
  exact h.1

/-- **The pump moves on**, which keeps what has nothing to do with where it is. -/
theorem Sound.moves {p : PumpAt ρ} (h : Sound s)
    (hover : ({ s with pump := p } : SocketChannel ρ).finished = s.finished)
    (hquiet : s.closing .pump = .no ∧ s.sending ≠ some .pump) (hdone : s.pump ≠ .done) :
    Sound { s with pump := p } :=
  { h with
    fd := hover.symm ▸ h.fd
    sending := by
      intro t ht
      obtain ⟨hfd, hno, -⟩ := h.sending t ht
      refine ⟨hfd, hno, ?_⟩
      rintro rfl
      exact absurd ht hquiet.2
    pump := fun hno => absurd hquiet.1 hno
    joined := fun hjoined => absurd (h.joined hjoined) hdone }

/-- A call on a descriptor that is open. -/
theorem Sound.called {c : FdCall} (h : Sound s) (hfd : s.hasFd = true) (hc : c ≠ .close) :
    Sound { s with calls := s.calls ++ [c] } :=
  { h with
    calls := by
      have hnot := h.calls
      simp only [hfd, if_true] at hnot ⊢
      simp [hnot, hc.symm] }

theorem Sound.nobody (h : Sound s) (hfree : s.holder = none) (u : Thread) :
    s.closing u ≠ .joining := by
  intro hu
  exact absurd (hfree.symm.trans ((h.holder u).mpr hu)) nofun

/-- Where a thread is in `shutdown` changes for this thread alone. -/
theorem closing_update {c d : Closing} {f : Thread → Closing} :
    Function.update f t c u = d ↔ u = t ∧ c = d ∨ u ≠ t ∧ f u = d := by
  rw [Function.update_apply]
  split
  · next heq => simp [heq]
  · next hne => simp [hne]

/-- A thread begins to close the channel, which is marked as closed by then. -/
theorem Sound.begins (h : Sound s) (hclosed : s.closed = true) (hfree : s.sending = none)
    (hliberty : s.atLiberty t = true) :
    Sound { s with closing := Function.update s.closing t .locking } := by
  obtain ⟨hno, -⟩ := quiet_of_atLiberty hliberty
  refine { h with
    sending := fun u hu => absurd (hfree.symm.trans hu) nofun, holder := ?_, joining := ?_,
    pump := ?_, closing := fun _ _ => hclosed }
  · intro u
    simp only [closing_update, reduceCtorEq, and_false, false_or]
    have hholder := h.holder u
    grind
  · intro u hu
    simp only [closing_update, reduceCtorEq, and_false, false_or] at hu
    exact h.joining u hu.2
  · intro hpump
    simp only [ne_eq, closing_update, reduceCtorEq, and_false, false_or, not_and] at hpump
    by_cases hut : .pump = t
    · subst hut
      have hback : s.calledBack = true := by simpa using (Bool.and_eq_true_iff.mp hliberty).2
      exact hback
    · exact h.pump (hpump hut)

/-- A thread goes on in `shutdown`, where no other is, to wait for the pump or to return. -/
theorem Sound.goesOn {c : Closing} {holder : Option Thread} {thread : PumpThread} (h : Sound s)
    (hclosing : s.closing t ≠ .no)
    (hholder : ∀ u, holder = some u ↔ Function.update s.closing t c u = .joining)
    (hjoining : ∀ u, Function.update s.closing t c u = .joining → thread = .joinable ∧ u ≠ .pump)
    (hjoined : thread = .joined → s.pump = .done) :
    Sound { s with closing := Function.update s.closing t c, holder, thread } := by
  refine { h with
    sending := ?_, holder := hholder, joining := hjoining, pump := ?_, closing := ?_
    joined := hjoined }
  · intro u hu
    obtain ⟨hfd, hno, hpump⟩ := h.sending u hu
    have hne : u ≠ t := fun heq => hclosing (heq ▸ hno)
    exact ⟨hfd, closing_update.mpr (Or.inr ⟨hne, hno⟩), hpump⟩
  · intro hpump
    refine h.pump fun hno => hpump (closing_update.mpr (Or.inr ⟨?_, hno⟩))
    exact fun heq => hclosing (heq ▸ hno)
  · intro u hu
    refine h.closing u fun hno => hu (closing_update.mpr (Or.inr ⟨?_, hno⟩))
    exact fun heq => hclosing (heq ▸ hno)

/-- **Every step keeps it.** -/
theorem Sound.next (h : Sound s) (hstep : s.next a = some s') : Sound s' := by
  cases next_does hstep with
  | looksOut hpump =>
    exact h.moves (by simp [finished, hpump]) (h.quiet (by simp [calledBack, hpump]))
      (by simp [hpump])
  | receives hpump hopen =>
    exact (h.moves (p := .receiving) (by simp [finished, hpump])
      (h.quiet (by simp [calledBack, hpump])) (by simp [hpump])).called hopen nofun
  | gets hpump =>
    exact { h.moves (p := .scanning) (by simp [finished, hpump])
      (h.quiet (by simp [calledBack, hpump])) (by simp [hpump]) with }
  | interrupted hpump | ends hpump | noLine hpump =>
    exact h.moves (by simp [finished, hpump]) (h.quiet (by simp [calledBack, hpump]))
      (by simp [hpump])
  | skips => exact { h with }
  | @hands _ _ cb hpump =>
    exact { h.moves (p := .delivering cb) (by simp [finished, hpump])
      (h.quiet (by simp [calledBack, hpump])) (by simp [hpump]) with }
  | receiverReturns hpump hliberty | eofReturns hpump hliberty =>
    exact h.moves (by simp [finished, hpump]) (quiet_of_atLiberty hliberty) (by simp [hpump])
  | leaves hpump hfree =>
    have hopen : s.hasFd = true := by simp [h.fd, finished, hpump]
    have hcalls := h.calls
    rw [if_pos hopen] at hcalls
    exact { h with
      fd := rfl
      closed := fun _ => rfl
      calls := ⟨s.calls, by simp [hopen], hcalls⟩
      sending := fun t ht => absurd (hfree.symm.trans ht) nofun
      pump := fun _ => rfl
      closing := fun _ _ => rfl
      joined := fun hjoined => absurd (hpump.symm.trans (h.joined hjoined)) nofun }
  | setReceiver => exact { h with }
  | refuses => exact h
  | @sends t hopen hliberty =>
    refine { h.called hopen (c := .send) nofun with sending := ?_ }
    intro u hu
    obtain rfl : t = u := Option.some.inj hu
    refine ⟨hopen, (quiet_of_atLiberty hliberty).1, ?_⟩
    rintro rfl
    have hback : s.calledBack = true := by simpa using (Bool.and_eq_true_iff.mp hliberty).2
    exact hback
  | sendsMore hsending => exact h.called (h.sending _ hsending).1 nofun
  | sent => exact { h with sending := nofun }
  | shutsDown hfree hliberty =>
    have hclosed : Sound { s with
        closed := true
        calls := s.calls ++ if !s.closed && s.hasFd then [.shutdown] else [] } := by
      split
      · next hopen =>
        simp only [Bool.and_eq_true] at hopen
        exact { h.called hopen.2 (c := .shutdown) nofun with
          closed := fun _ => rfl, closing := fun _ _ => rfl }
      · rw [List.append_nil]
        exact { h with closed := fun _ => rfl, closing := fun _ _ => rfl }
    exact hclosed.begins rfl hfree hliberty
  | nothingToJoin hlocking hfree =>
    have hnone := h.nobody hfree
    refine h.goesOn (by simp [hlocking]) ?_ ?_ h.joined
    · simp [hfree, closing_update, hnone]
    · simp [closing_update, hnone]
  | detaches hlocking hfree =>
    have hnone := h.nobody hfree
    refine h.goesOn (by simp [hlocking]) ?_ ?_ nofun
    · simp [hfree, closing_update, hnone]
    · simp [closing_update, hnone]
  | waits hlocking hfree hthread hother =>
    have hnone := h.nobody hfree
    refine h.goesOn (by simp [hlocking]) ?_ ?_ h.joined
    · intro u
      rw [closing_update]
      simp [hnone, eq_comm]
    · intro u hu
      simp only [closing_update, hnone, and_false, or_false] at hu
      exact ⟨hthread, hu.1 ▸ hother⟩
  | @joins t hjoining hdone =>
    -- one thread has `m_pumpMu`
    have hone : ∀ u, u ≠ t → s.closing u ≠ .joining := by
      intro u hne hu
      have hsame := ((h.holder u).mpr hu).symm.trans ((h.holder t).mpr hjoining)
      exact hne (Option.some.inj hsame)
    refine h.goesOn (by simp [hjoining]) ?_ ?_ fun _ => hdone
    · intro u
      simp only [closing_update, reduceCtorEq, and_false, false_or, false_iff, not_and]
      exact hone u
    · intro u hu
      simp only [closing_update, reduceCtorEq, and_false, false_or] at hu
      exact absurd hu.2 (hone u hu.1)

theorem sound_of_run (h : Run s) : Sound s :=
  h.invariant sound_init fun hs _ hnext => hs.next hnext

/-! ## 4. The descriptor -/

/-- **The descriptor is closed once, by the pump, and nothing is done with it afterwards**: as long
as the pump is in its loop nobody has closed it; from then on the last call on it was the one that
closed it, and nobody is in another. -/
theorem descriptor_of_run (h : Run s) :
    s.finished = false ∧ .close ∉ s.calls ∨
      s.finished = true ∧ s.isOpen = false ∧ s.sending = none ∧
        ∃ before, s.calls = before ++ [.close] ∧ .close ∉ before := by
  have hs := sound_of_run h
  have hcalls := hs.calls
  cases hfd : s.hasFd with
  | true =>
    rw [if_pos hfd] at hcalls
    refine Or.inl ⟨?_, hcalls⟩
    simpa [hfd] using hs.fd
  | false =>
    rw [if_neg (by simp [hfd])] at hcalls
    refine Or.inr ⟨by simpa [hfd] using hs.fd, by simp [isOpen, hs.closed hfd], ?_, hcalls⟩
    cases hsending : s.sending with
    | none => rfl
    | some t => exact absurd ((hs.sending t hsending).1.symm.trans hfd) nofun

/-- What a channel is after these steps, where each can be taken. -/
def after (steps : List (ChannelStep Unit)) : SocketChannel Unit :=
  (runActions next {} steps).getD {}

theorem run_after {steps : List (ChannelStep Unit)} (h : (runActions next {} steps).isSome) :
    Run (after steps) := by
  obtain ⟨s, hs⟩ := Option.isSome_iff_exists.mp h
  rw [after, hs]
  exact runActions_reaches steps .refl hs

/-- A line comes in, and a receiver gets it. -/
def lineComes : List (ChannelStep Unit) :=
  [.setReceiver (.user 0) (some ()), .look, .recv (.data [104, 105, newline]), .scan]

/-- The receiver returns, and then the far end is gone. -/
def hungUp : SocketChannel Unit :=
  after (lineComes ++ [.receiverReturns, .scan, .look, .recv .ended, .leave])

theorem descriptor_hungUp : hungUp.isOpen = false ∧
    ∃ before, hungUp.calls = before ++ [.close] ∧ .close ∉ before := by
  have h := (descriptor_of_run (run_after rfl : Run hungUp)).resolve_left fun h =>
    absurd h.1 (by decide)
  exact ⟨h.2.1, h.2.2.2⟩

/-! ## 5. After a `close` -/

/-- Once the pump is done nothing more happens to the descriptor, and no receiver runs. -/
theorem next_done (h : Sound s) (hdone : s.pump = .done) (hstep : s.next a = some s') :
    s'.pump = .done ∧ s'.calls = s.calls ∧ s'.handed = s.handed := by
  have hfd : s.hasFd = false := by simp [h.fd, finished, hdone]
  cases next_does hstep with
  | looksOut hpump | receives hpump | gets hpump | interrupted hpump | ends hpump | noLine hpump
  | skips hpump | hands hpump | receiverReturns hpump | leaves hpump | eofReturns hpump =>
    exact absurd (hdone.symm.trans hpump) nofun
  | sends hopen => exact absurd (hfd.symm.trans hopen) nofun
  | sendsMore hsending | sent hsending =>
    exact absurd (hfd.symm.trans (h.sending _ hsending).1) nofun
  | shutsDown => exact ⟨hdone, by simp [shutdownFd, hfd], rfl⟩
  | setReceiver | refuses | nothingToJoin | detaches | waits | joins => exact ⟨hdone, rfl, rfl⟩

theorem done_of_goesOn (h : Sound s) (hdone : s.pump = .done) (hrun : GoesOn s s') :
    s'.pump = .done ∧ s'.calls = s.calls ∧ s'.handed = s.handed := by
  refine hrun.invariant_beside (J := Sound)
    (I := fun u => u.pump = .done ∧ u.calls = s.calls ∧ u.handed = s.handed)
    h (fun hs hnext => hs.next hnext) ⟨hdone, rfl, rfl⟩ ?_
  intro u u' a hs hu _ hnext
  obtain ⟨hdone', hcalls, hhanded⟩ := next_done hs hu.1 hnext
  exact ⟨hdone', hcalls.trans hu.2.1, hhanded.trans hu.2.2⟩

/-- A thread returns from `close` when it has joined the pump, or there was nothing to join, or it
is the pump. -/
theorem next_returns (h : Sound s) (hclosing : s.closing t ≠ .no) (hstep : s.next a = some s')
    (hno : s'.closing t = .no) : s'.pump = .done ∨ s'.thread = .detached := by
  cases next_does hstep with
  | looksOut | receives | gets | interrupted | ends | noLine | skips | hands | receiverReturns
  | leaves | eofReturns | setReceiver | refuses | sends | sendsMore | sent =>
    exact absurd hno hclosing
  | shutsDown | waits =>
    simp only [shutdownFd, closing_update, reduceCtorEq, and_false, false_or] at hno
    exact absurd hno.2 hclosing
  | nothingToJoin _ _ hthread =>
    cases hjoined : s.thread with
    | joinable => exact absurd hjoined hthread
    | joined => exact Or.inl (h.joined hjoined)
    | detached => exact Or.inr rfl
  | detaches => exact Or.inr rfl
  | joins _ hdone => exact Or.inl hdone

/-- **When `close` has returned, the pump is over**: no receiver runs from then on, and nothing is
done with the descriptor, whatever comes.  A pump that has closed the channel itself is detached,
and not waited for. -/
theorem over_of_close_returns (h : Run s) (hclosing : s.closing t ≠ .no)
    (hstep : s.next a = some s') (hno : s'.closing t = .no) :
    s'.thread = .detached ∨ ∀ s'', GoesOn s' s'' →
      s''.pump = .done ∧ s''.calls = s'.calls ∧ s''.handed = s'.handed := by
  have hs := sound_of_run h
  rcases next_returns hs hclosing hstep hno with hdone | hdetached
  · exact Or.inr fun s'' hrun => done_of_goesOn (hs.next hstep) hdone hrun
  · exact Or.inl hdetached

/-- The pump is done, and another thread is about to join it. -/
def joining : SocketChannel Unit :=
  after [.look, .recv .ended, .leave, .eofReturns, .shutdownFd (.user 0), .lock (.user 0)]

/-- It has joined it. -/
def joined : SocketChannel Unit :=
  { joining with
    closing := Function.update joining.closing (.user 0) .no
    holder := none
    thread := .joined }

theorem over_joined : ¬ ∃ s, GoesOn joined s ∧ s.pump ≠ .done := by
  have hstep : joining.next (.join (.user 0)) = some joined := rfl
  have h := over_of_close_returns (t := .user 0) (run_after rfl : Run joining) (by decide) hstep
    rfl
  rintro ⟨s, hrun, hpump⟩
  exact hpump (h.resolve_left nofun s hrun).1

/-! ## 6. What a receiver gets -/

/-- A step that puts no receiver in. -/
def LeavesReceiver : ChannelStep ρ → Prop
  | .setReceiver _ _ => False
  | _ => True

/-- Lines are handed to `cb`, where there is one, from a point on. -/
structure HandsTo (cb : Option ρ) (before : List (ρ × List UInt8)) (s : SocketChannel ρ) :
    Prop where
  receiver : s.receiver = cb
  running : ∀ cb', s.pump = .delivering cb' → cb = some cb'
  handed : ∃ new, s.handed = before ++ new ∧ ∀ x ∈ new, cb = some x.1

theorem HandsTo.next {cb : Option ρ} {before : List (ρ × List UInt8)} (h : HandsTo cb before s)
    (hleaves : LeavesReceiver a) (hstep : s.next a = some s') : HandsTo cb before s' := by
  cases next_does hstep with
  | looksOut | receives | gets | interrupted | ends | noLine | leaves | receiverReturns
  | eofReturns => exact { h with running := nofun }
  | skips | refuses | sends | sendsMore | sent | shutsDown | nothingToJoin | detaches | waits
  | joins => exact { h with }
  | @hands line _ cb' _ _ _ hreceiver =>
    have hcb : cb = some cb' := h.receiver.symm.trans hreceiver
    obtain ⟨new, hhanded, hnew⟩ := h.handed
    refine ⟨h.receiver, ?_, new ++ [(cb', line)], by simp [hhanded], ?_⟩
    · intro cb'' hpump
      cases hpump
      exact hcb
    · intro x hx
      rcases List.mem_append.mp hx with hmem | hlast
      · exact hnew x hmem
      · rw [List.mem_singleton.mp hlast]
        exact hcb
  | setReceiver => exact hleaves.elim

/-- **A receiver that was taken out is not called any more**: when another thread than the pump has
put `cb` in, the receiver before it is not running, and until the next one every line is handed to
`cb`; with none, no line is handed over. -/
theorem handed_to_receiver {n : Nat} {cb : Option ρ}
    (hstep : s.next (.setReceiver (.user n) cb) = some s')
    {s'' : SocketChannel ρ}
    (hrun : Reaches (fun s a s' => s.next a = some s') (fun _ a => LeavesReceiver a) s' s'') :
    (∀ cb', s''.pump = .delivering cb' → cb = some cb') ∧
      ∃ new, s''.handed = s'.handed ++ new ∧ ∀ x ∈ new, cb = some x.1 := by
  have h₀ : HandsTo cb s'.handed s' := by
    cases next_does hstep with
    | setReceiver hlock =>
      refine ⟨rfl, fun cb' hpump => ?_, [], (List.append_nil _).symm, List.forall_mem_nil _⟩
      exact absurd hpump (hlock.resolve_left nofun cb')
  have h := hrun.invariant h₀ fun hs hleaves hnext => hs.next hleaves hnext
  exact ⟨h.running, h.handed⟩

/-- A line has come in, and the receiver is taken out before it is handed over. -/
def takenOut : SocketChannel Unit :=
  { after (lineComes.take 3) with receiver := none }

theorem handed_takenOut : ¬ ∃ s, Reaches (fun s a s' => s.next a = some s')
    (fun _ a => LeavesReceiver a) takenOut s ∧ s.handed ≠ [] := by
  rintro ⟨s, hrun, hsome⟩
  have hstep : (after (lineComes.take 3)).next (.setReceiver (.user 0) none) = some takenOut := rfl
  obtain ⟨-, new, hhanded, hnew⟩ := handed_to_receiver hstep hrun
  cases new with
  | nil => exact hsome hhanded
  | cons x new => exact absurd (hnew x List.mem_cons_self) nofun

/-- The lines of a stream that are no empty lines. -/
def fullLines (bytes : List UInt8) : List (List UInt8) :=
  (lines newline bytes).filter fun line => !line.isEmpty

theorem cutLine_eq_some {inbox line rest : List UInt8} (h : cutLine inbox = some (line, rest)) :
    inbox = line ++ newline :: rest ∧ newline ∉ line := by
  unfold cutLine at h
  split at h
  · cases h
  · next c rest' hdrop =>
    cases h
    have hc : c = newline := by
      have hhead := List.head_dropWhile_not (· != newline) (l := inbox) (by simp [hdrop])
      simpa [hdrop] using hhead
    subst hc
    refine ⟨?_, ?_⟩
    · rw [← hdrop, List.takeWhile_append_dropWhile]
    · intro hmem
      simpa using List.mem_takeWhile_imp hmem

theorem length_of_cutLine {inbox line rest : List UInt8}
    (h : cutLine inbox = some (line, rest)) : rest.length < inbox.length := by
  rw [(cutLine_eq_some h).1, List.length_append, List.length_cons]
  omega

/-- What was handed over and what the inbox still holds, in the order of what has arrived. -/
structure InOrder (s : SocketChannel ρ) : Prop where
  unfinished : unfinished newline s.inbox = unfinished newline s.arrived
  lines : List.Sublist (s.handed.map Prod.snd ++ fullLines s.inbox) (fullLines s.arrived)

theorem InOrder.next (h : InOrder s) (hstep : s.next a = some s') : InOrder s' := by
  cases next_does hstep with
  | @gets chunk _ =>
    obtain ⟨hinbox, hleft⟩ := @lines_append _ _ _ newline s.inbox chunk
    obtain ⟨harrived, hleft'⟩ := @lines_append _ _ _ newline s.arrived chunk
    refine ⟨?_, ?_⟩
    · simp only [hleft, hleft', h.unfinished]
    · simp only [fullLines, hinbox, harrived, h.unfinished, List.filter_append, ← List.append_assoc]
      exact h.lines.append_right _
  | @skips line inbox _ hline =>
    obtain ⟨hinbox, hmem⟩ := cutLine_eq_some hline
    obtain ⟨hlines, hleft⟩ := @lines_cons _ _ _ newline line inbox hmem
    refine ⟨?_, ?_⟩
    · rw [← h.unfinished, hinbox, hleft]
    · refine List.Sublist.trans ?_ h.lines
      rw [fullLines, fullLines, hinbox, hlines]
      exact ((List.sublist_cons_self _ _).filter _).append_left _
  | @hands line inbox cb _ hline hfull _ =>
    obtain ⟨hinbox, hmem⟩ := cutLine_eq_some hline
    obtain ⟨hlines, hleft⟩ := @lines_cons _ _ _ newline line inbox hmem
    refine ⟨?_, ?_⟩
    · rw [← h.unfinished, hinbox, hleft]
    · have hsame := h.lines
      rw [hinbox, fullLines, hlines, List.filter_cons_of_pos (by simpa using hfull)] at hsame
      simpa [fullLines] using hsame
  | looksOut | receives | interrupted | ends | noLine | receiverReturns | leaves | eofReturns
  | setReceiver | refuses | sends | sendsMore | sent | shutsDown | nothingToJoin | detaches | waits
  | joins => exact { h with }

/-- **The lines are handed over in order, each once at most**, to whatever receivers. -/
theorem handed_sublist (h : Run s) :
    List.Sublist (s.handed.map Prod.snd) (fullLines s.arrived) := by
  have hs : InOrder s := h.invariant ⟨rfl, List.Sublist.refl _⟩ fun hs _ hnext => hs.next hnext
  exact (List.sublist_append_left _ _).trans hs.lines

/-! ## 7. When a `close` returns -/

/-- Nobody gets out of it. -/
theorem Deadlocked.next (h : Sound s) (hdead : Deadlocked s) (hstep : s.next a = some s') :
    Deadlocked s' ∧ ∀ t, s.closing t ≠ .no → s'.closing t ≠ .no := by
  obtain ⟨hpump, t, hjoining⟩ := hdead
  have hback : s.calledBack = true := h.pump (by simp [hpump])
  have hholder : s.holder ≠ none := by
    rw [(h.holder t).mpr hjoining]
    nofun
  have hstay : Deadlocked s := ⟨hpump, t, hjoining⟩
  cases next_does hstep with
  | looksOut hpump' | receives hpump' | gets hpump' | interrupted hpump' | ends hpump'
  | noLine hpump' | skips hpump' | hands hpump' | leaves hpump' | joins _ hpump' =>
    simp [calledBack, hpump'] at hback
  | receiverReturns _ hliberty | eofReturns _ hliberty =>
    exact absurd (hpump.symm.trans (quiet_of_atLiberty hliberty).1) nofun
  | setReceiver | refuses | sends | sendsMore | sent => exact ⟨hstay, fun _ hu => hu⟩
  | @shutsDown u _ hliberty =>
    have hno := (quiet_of_atLiberty hliberty).1
    have hkeeps : ∀ v, s.closing v ≠ .no → (s.shutdownFd u).closing v = s.closing v := by
      intro v hv
      have hne : v ≠ u := fun heq => hv (heq ▸ hno)
      exact Function.update_of_ne hne ..
    refine ⟨⟨(hkeeps _ (by simp [hpump])).trans hpump, t, ?_⟩, fun v hv => ?_⟩
    · exact (hkeeps _ (by simp [hjoining])).trans hjoining
    · rw [hkeeps v hv]
      exact hv
  | nothingToJoin _ hfree | detaches _ hfree | waits _ hfree => exact absurd hfree hholder

/-- What the pump may do by itself, without changing who is where in `shutdown`. -/
structure PumpGoesOn (s s' : SocketChannel ρ) : Prop where
  run : GoesOn s s'
  closing : s'.closing = s.closing
  holder : s'.holder = s.holder

theorem PumpGoesOn.trans {s₁ s₂ s₃ : SocketChannel ρ} (h : PumpGoesOn s₁ s₂)
    (h' : PumpGoesOn s₂ s₃) : PumpGoesOn s₁ s₃ where
  run := h.run.trans h'.run
  closing := h'.closing.trans h.closing
  holder := h'.holder.trans h.holder

/-- One step of the pump. -/
theorem PumpGoesOn.of_next (hstep : s.next a = some s') (hclosing : s'.closing = s.closing)
    (hholder : s'.holder = s.holder) : PumpGoesOn s s' where
  run := Reaches.refl.tail trivial hstep
  closing := hclosing
  holder := hholder

/-- The pump of a closed channel, which nobody sends on, gets out of its loop and ends. -/
structure Ready (s : SocketChannel ρ) : Prop where
  closed : s.closed = true
  sending : s.sending = none
  closing : s.closing .pump = .no

theorem Ready.atLiberty (h : Ready s) (hback : s.calledBack = true) :
    s.atLiberty .pump = true := by
  simp [SocketChannel.atLiberty, h.closing, h.sending, hback]

theorem exists_done_of_ended (h : Ready s) (hpump : s.pump = .ended) :
    ∃ s', PumpGoesOn s s' ∧ s'.pump = .done := by
  have hliberty := h.atLiberty (by simp [calledBack, hpump])
  refine ⟨{ s with pump := .done }, .of_next (a := .eofReturns) ?_ rfl rfl, rfl⟩
  simp [next, hpump, hliberty]

theorem exists_done_of_leaving (h : Ready s) (hpump : s.pump = .leaving) :
    ∃ s', PumpGoesOn s s' ∧ s'.pump = .done := by
  have hstep : s.next .leave = some { s with
      pump := .ended
      closed := true
      hasFd := false
      calls := s.calls ++ if s.hasFd then [.close] else [] } := by
    simp [next, hpump, h.sending]
  obtain ⟨s', hrun, hdone⟩ := exists_done_of_ended (s := { s with
      pump := .ended
      closed := true
      hasFd := false
      calls := s.calls ++ if s.hasFd then [.close] else [] }) ⟨rfl, h.sending, h.closing⟩ rfl
  exact ⟨s', (PumpGoesOn.of_next hstep rfl rfl).trans hrun, hdone⟩

theorem exists_done_of_top (h : Ready s) (hpump : s.pump = .top) :
    ∃ s', PumpGoesOn s s' ∧ s'.pump = .done := by
  have hstep : s.next .look = some { s with pump := .leaving } := by
    simp [next, hpump, h.sending, h.closed]
  obtain ⟨s', hrun, hdone⟩ := exists_done_of_leaving (s := { s with pump := .leaving })
    ⟨h.closed, h.sending, h.closing⟩ rfl
  exact ⟨s', (PumpGoesOn.of_next hstep rfl rfl).trans hrun, hdone⟩

/-- Line by line, each receiver returning. -/
theorem exists_done_of_scanning (h : Ready s) (hpump : s.pump = .scanning) :
    ∃ s', PumpGoesOn s s' ∧ s'.pump = .done := by
  induction hlength : s.inbox.length using Nat.strong_induction_on generalizing s with
  | h n ih =>
  have hnext : s.next .scan = some s.scan := by simp [next, hpump]
  have hdoes := does_scan hpump
  generalize s.scan = t at hnext hdoes
  cases hdoes with
  | noLine =>
    obtain ⟨s', hrun, hdone⟩ := exists_done_of_top (s := { s with pump := .top })
      ⟨h.closed, h.sending, h.closing⟩ rfl
    exact ⟨s', (PumpGoesOn.of_next hnext rfl rfl).trans hrun, hdone⟩
  | @skips line inbox _ hline =>
    obtain ⟨s', hrun, hdone⟩ := @ih inbox.length (hlength ▸ length_of_cutLine hline)
      { s with inbox } ⟨h.closed, h.sending, h.closing⟩ hpump rfl
    exact ⟨s', (PumpGoesOn.of_next hnext rfl rfl).trans hrun, hdone⟩
  | @hands line inbox cb _ hline =>
    obtain ⟨s', hrun, hdone⟩ := @ih inbox.length (hlength ▸ length_of_cutLine hline)
      { s with inbox, pump := .scanning, handed := s.handed ++ [(cb, line)] }
      ⟨h.closed, h.sending, h.closing⟩ rfl rfl
    have hreturns : ({ s with
        inbox, pump := .delivering cb, handed := s.handed ++ [(cb, line)] } :
        SocketChannel ρ).next .receiverReturns =
          some { s with inbox, pump := .scanning, handed := s.handed ++ [(cb, line)] } := by
      simp [next, SocketChannel.atLiberty, h.closing, h.sending, calledBack]
    exact ⟨s', ((PumpGoesOn.of_next hnext rfl rfl).trans (.of_next hreturns rfl rfl)).trans hrun,
      hdone⟩

theorem exists_done (h : Ready s) : ∃ s', PumpGoesOn s s' ∧ s'.pump = .done := by
  cases hpump : s.pump with
  | top => exact exists_done_of_top h hpump
  | receiving =>
    have hstep : s.next (.recv .ended) = some { s with pump := .leaving } := by simp [next, hpump]
    obtain ⟨s', hrun, hdone⟩ := exists_done_of_leaving (s := { s with pump := .leaving })
      ⟨h.closed, h.sending, h.closing⟩ rfl
    exact ⟨s', (PumpGoesOn.of_next hstep rfl rfl).trans hrun, hdone⟩
  | scanning => exact exists_done_of_scanning h hpump
  | delivering cb =>
    have hstep : s.next .receiverReturns = some { s with pump := .scanning } := by
      simp [next, hpump, h.atLiberty (by simp [calledBack, hpump])]
    obtain ⟨s', hrun, hdone⟩ := exists_done_of_scanning (s := { s with pump := .scanning })
      ⟨h.closed, h.sending, h.closing⟩ rfl
    exact ⟨s', (PumpGoesOn.of_next hstep rfl rfl).trans hrun, hdone⟩
  | leaving => exact exists_done_of_leaving h hpump
  | ended => exact exists_done_of_ended h hpump
  | done => exact ⟨s, ⟨.refl, rfl, rfl⟩, hpump⟩

/-- Who sends returns, since the descriptor is shut down. -/
theorem exists_not_sending (h : Sound s) (hclosed : s.closed = true) : ∃ s', GoesOn s s' ∧
    Sound s' ∧ s'.closed = true ∧ s'.sending = none ∧ s'.closing = s.closing ∧
      s'.holder = s.holder := by
  cases hsending : s.sending with
  | none => exact ⟨s, .refl, h, hclosed, hsending, rfl, rfl⟩
  | some t =>
    have hstep : s.next (.writeReturns t) = some { s with sending := none } := by
      simp [next, hsending]
    exact ⟨_, Reaches.refl.tail (a := .writeReturns t) trivial hstep, h.next hstep, hclosed, rfl,
      rfl, rfl⟩

/-- The pump gets out of `close`, unless it is caught there. -/
theorem exists_ready (h : Sound s) (hclosed : s.closed = true) (halive : ¬ Deadlocked s) :
    ∃ s', GoesOn s s' ∧ Ready s' ∧ Sound s' := by
  obtain ⟨s₁, hrun, hs, hclosed₁, hsending, hclosing, hholder⟩ := exists_not_sending h hclosed
  cases hpump : s.closing .pump with
  | no => exact ⟨s₁, hrun, ⟨hclosed₁, hsending, by rw [hclosing, hpump]⟩, hs⟩
  | joining => exact absurd rfl (h.joining _ hpump).2
  | locking =>
    have hfree : s.holder = none := by
      cases hsome : s.holder with
      | none => rfl
      | some t => exact absurd ⟨hpump, t, (h.holder t).mp hsome⟩ halive
    have hstep : s₁.next (.lock .pump) = some (s₁.lock .pump) := by
      simp [next, hclosing, hholder, hpump, hfree]
    have hready : Ready (s₁.lock .pump) := by
      have hno : Function.update s₁.closing .pump .no .pump = .no := Function.update_self ..
      unfold lock
      rw [if_pos rfl]
      split
      · exact ⟨hclosed₁, hsending, hno⟩
      · exact ⟨hclosed₁, hsending, hno⟩
    exact ⟨_, hrun.tail trivial hstep, hready, hs.next hstep⟩

/-- Whoever has `m_pumpMu` joins the pump. -/
theorem exists_free (h : Sound s) (hdone : s.pump = .done) :
    ∃ s', GoesOn s s' ∧ Sound s' ∧ s'.pump = .done ∧ s'.holder = none := by
  cases hholder : s.holder with
  | none => exact ⟨s, .refl, h, hdone, hholder⟩
  | some u =>
    have hstep : s.next (.join u) = some { s with
        closing := Function.update s.closing u .no, holder := none, thread := .joined } := by
      simp [next, (h.holder u).mp hholder, hdone]
    exact ⟨_, Reaches.refl.tail (a := .join u) trivial hstep, h.next hstep, hdone, rfl⟩

/-- A thread that finds the pump done and `m_pumpMu` free returns. -/
theorem exists_returned (h : Sound s) (hdone : s.pump = .done) (hfree : s.holder = none) :
    ∃ s', GoesOn s s' ∧ s'.closing t = .no := by
  cases hclosing : s.closing t with
  | no => exact ⟨s, .refl, hclosing⟩
  | joining => exact absurd hclosing (h.nobody hfree t)
  | locking =>
    have hstep : s.next (.lock t) = some (s.lock t) := by simp [next, hclosing, hfree]
    have hrun : GoesOn s (s.lock t) := Reaches.refl.tail trivial hstep
    unfold lock at hrun
    split at hrun
    · exact ⟨_, hrun, Function.update_self ..⟩
    · split at hrun
      · exact ⟨_, hrun, Function.update_self ..⟩
      · refine ⟨{ s with
          closing := Function.update (Function.update s.closing t .joining) t .no
          holder := none
          thread := .joined }, hrun.tail (a := .join t) trivial ?_, Function.update_self ..⟩
        simp [next, hdone]

/-- **A thread in `close` can get out of it exactly when the pump is not caught**: in `close`
itself, while another thread has `m_pumpMu` and waits for the pump. -/
theorem close_returns_iff (h : Run s) (hclosing : s.closing t ≠ .no) :
    (∃ s', GoesOn s s' ∧ s'.closing t = .no) ↔ ¬ Deadlocked s := by
  have hs := sound_of_run h
  constructor
  · rintro ⟨s', hrun, hno⟩ hdead
    have hstuck : Deadlocked s' ∧ s'.closing t ≠ .no := by
      refine hrun.invariant_beside (J := Sound) (I := fun u => Deadlocked u ∧ u.closing t ≠ .no)
        hs (fun hs hnext => hs.next hnext) ⟨hdead, hclosing⟩ ?_
      intro u u' a hu hstuck _ hnext
      obtain ⟨hdead', hkeeps⟩ := hstuck.1.next hu hnext
      exact ⟨hdead', hkeeps t hstuck.2⟩
    exact hstuck.2 hno
  · intro halive
    obtain ⟨s₁, hrun₁, hready, hs₁⟩ := exists_ready hs (hs.closing t hclosing) halive
    obtain ⟨s₂, hgoes, hdone⟩ := exists_done hready
    have hs₂ : Sound s₂ := hgoes.run.invariant hs₁ fun hu _ hnext => hu.next hnext
    obtain ⟨s₃, hrun₃, hs₃, hdone₃, hfree₃⟩ := exists_free hs₂ hdone
    obtain ⟨s₄, hrun₄, hno⟩ := @exists_returned _ s₃ t hs₃ hdone₃ hfree₃
    exact ⟨s₄, ((hrun₁.trans hgoes.run).trans hrun₃).trans hrun₄, hno⟩

/-- The receiver runs while another thread closes the channel, and closes it itself. -/
def caught : SocketChannel Unit :=
  after (lineComes ++ [.shutdownFd (.user 0), .lock (.user 0), .shutdownFd .pump])

theorem close_caught : ¬ ∃ s, GoesOn caught s ∧ s.closing (.user 0) = .no := by
  have hrun : Run caught := run_after rfl
  have hdead : Deadlocked caught := ⟨rfl, .user 0, rfl⟩
  exact fun hreturns => (close_returns_iff hrun (by decide)).mp hreturns hdead

/-- **Where no receiver closes the channel, every `close` can return.** -/
theorem not_deadlocked_of_others (h : Reaches (fun s a s' => s.next a = some s')
    (fun _ a => a ≠ .shutdownFd .pump) ({} : SocketChannel ρ) s) : ¬ Deadlocked s := by
  have hno : s.closing .pump = .no := by
    refine h.invariant (I := fun u => u.closing .pump = .no) rfl ?_
    intro u u' a hu ha hnext
    cases next_does hnext with
    | @shutsDown t =>
      refine (Function.update_of_ne ?_ ..).trans hu
      rintro rfl
      exact ha rfl
    | nothingToJoin hlocking | waits hlocking | joins hlocking =>
      refine closing_update.mpr (Or.inr ⟨?_, hu⟩)
      rintro rfl
      exact absurd (hu.symm.trans hlocking) nofun
    | detaches hlocking => exact absurd (hu.symm.trans hlocking) nofun
    | looksOut | receives | gets | interrupted | ends | noLine | skips | hands | receiverReturns
    | leaves | eofReturns | setReceiver | refuses | sends | sendsMore | sent => exact hu
  intro hdead
  exact absurd (hno.symm.trans hdead.1) nofun

end Steps

end SocketChannel

end Logosctl
