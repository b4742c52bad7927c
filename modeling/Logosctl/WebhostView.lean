/-
# The end of a page

A page is a process of its own, and two threads of the daemon can find out about its end: the pump of
its channel, which reads the end of the stream and announces the death of the page, and the thread
that destroys the view, which silences the announcement, ends the process and closes the channel.

They meet at one flag, `m_announced`.  The callback runs once at most, and exactly when the pump was
the first to get there (`died_of_run`).  When the view has been destroyed the process has been
reaped, and was not sent a signal after that (`ended_of_run`).  The pump holds a bare pointer to the
view; it does not use it after the destructor, unless a receiver has closed the channel or destroyed
the view, which detaches the pump (`untouched_of_run`).
-/
import Logosctl.WebChannel.Threads

namespace Logosctl

open Library

/-! ## 1. The two sides -/

/-- The page's process. -/
inductive Helper
  | running
  /-- it has exited, and was not waited for yet -/
  | exited
  | reaped
  deriving DecidableEq

inductive Signal
  | term
  | kill
  deriving DecidableEq

/-- Where the pump is in `announceDeath`. -/
inductive AnnounceAt (κ : Type)
  | before
  /-- it was the first at `m_announced` -/
  | first
  /-- `m_alive` is false -/
  | dead
  | calling (cb : κ)
  | finished

/-- Where the destructor is in `stop`. -/
inductive StopAt
  | before
  /-- `m_announced` is true -/
  | silenced
  /-- SIGTERM was sent, and the process was found running so often -/
  | polling (n : Nat)
  /-- SIGKILL was sent -/
  | killed
  /-- before the call of `close` -/
  | closing
  | inClose
  | stopped
  deriving DecidableEq

/-- `WebhostView`, once its channel is started, with the process behind it.  With it the signals
that were sent, each with what the process was by then, the calls of the callback, and whether a
member was used when the destructor had ended. -/
structure WebhostView (ρ κ : Type) where
  channel : SocketChannel ρ := {}
  announced : Bool := false
  alive : Bool := true
  hasPid : Bool := true
  onDied : Option κ := none
  announce : AnnounceAt κ := .before
  stop : StopAt := .before
  /-- the thread that runs the destructor -/
  stopper : Option Thread := none
  helper : Helper := .running
  signals : List (Signal × Helper) := []
  died : List κ := []
  touched : Bool := false

inductive ViewStep (ρ κ : Type)
  | channel (a : ChannelStep ρ)
  | exits
  /-- another part of the daemon waits for the process -/
  | reapedElsewhere
  | setOnDied (cb : Option κ)
  | exchange
  | storeDead
  | copy
  | callbackReturns
  | stop (t : Thread)
  | terminate
  | poll
  | kill
  | wait (interrupted : Bool)
  | close
  | closeReturns

/-- How long a terminated process is given. -/
def kExitGraceMs : Nat := 2000

namespace WebhostView

variable {ρ κ : Type}

def isAlive (v : WebhostView ρ κ) : Bool := v.alive

/-- The thread is not in the destructor. -/
def free (v : WebhostView ρ κ) (t : Thread) : Bool := v.stopper ≠ some t || v.stop = .stopped

/-- What the pump runs was given to it, and is not `announceDeath`. -/
def pumpCalls (v : WebhostView ρ κ) : Bool :=
  match v.channel.pump, v.announce with
  | .delivering _, _ | .ended, .calling _ => true
  | _, _ => false

/-- Who may call a function of the channel or of the view. -/
def mayCall (v : WebhostView ρ κ) (t : Thread) : Bool := v.free t && (t ≠ .pump || v.pumpCalls)

/-- The steps of the channel that this view leaves to its threads: the pump ends after
`announceDeath`, and a thread in the destructor does nothing else. -/
def permits (v : WebhostView ρ κ) : ChannelStep ρ → Bool
  | .setReceiver t _ | .write t | .shutdownFd t => v.mayCall t
  | .receiverReturns => v.free .pump
  | .eofReturns =>
    match v.announce with
    | .finished => true
    | _ => false
  | .look | .recv _ | .scan | .leave | .sendMore _ | .writeReturns _ | .lock _ | .join _ => true

/-- A member is used. -/
def touch (v : WebhostView ρ κ) : WebhostView ρ κ :=
  { v with touched := v.touched || v.stop = .stopped }

def next (v : WebhostView ρ κ) : ViewStep ρ κ → Option (WebhostView ρ κ)
  | .channel a =>
    if v.permits a then (v.channel.next a).map fun channel => { v with channel } else none
  | .exits => if v.helper = .running then some { v with helper := .exited } else none
  | .reapedElsewhere => if v.helper = .exited then some { v with helper := .reaped } else none
  | .setOnDied cb => if v.stop ≠ .stopped then some { v with onDied := cb } else none
  | .exchange =>
    match v.channel.pump, v.announce with
    | .ended, .before =>
      if v.announced then some { v.touch with announce := .finished }
      else some { v.touch with announced := true, announce := .first }
    | _, _ => none
  | .storeDead =>
    match v.announce with
    | .first => some { v.touch with alive := false, announce := .dead }
    | _ => none
  | .copy =>
    match v.announce, v.onDied with
    | .dead, none => some { v.touch with announce := .finished }
    | .dead, some cb => some { v.touch with announce := .calling cb, died := v.died ++ [cb] }
    | _, _ => none
  | .callbackReturns =>
    match v.announce with
    | .calling _ =>
      if v.channel.atLiberty .pump && v.free .pump then some { v with announce := .finished }
      else none
    | _ => none
  | .stop t =>
    if v.stop = .before && v.channel.atLiberty t && (t ≠ .pump || v.pumpCalls) then
      some { v with announced := true, stop := .silenced, stopper := some t }
    else none
  | .terminate =>
    match v.stop with
    | .silenced =>
      if v.hasPid then
        some { v with
          alive := false, stop := .polling 0, signals := v.signals ++ [(.term, v.helper)] }
      else some { v with alive := false, stop := .closing }
    | _ => none
  | .poll =>
    match v.stop with
    | .polling n =>
      if n * 20 < kExitGraceMs then
        match v.helper with
        | .running => some { v with stop := .polling (n + 1) }
        -- it is reaped now, or was (ECHILD)
        | .exited | .reaped => some { v with helper := .reaped, hasPid := false, stop := .closing }
      else none
    | _ => none
  | .kill =>
    match v.stop with
    | .polling n =>
      if n * 20 < kExitGraceMs then none
      else some { v with stop := .killed, signals := v.signals ++ [(.kill, v.helper)] }
    | _ => none
  | .wait interrupted =>
    match v.stop, v.helper, interrupted with
    | .killed, .running, true => some { v with hasPid := false, stop := .closing }
    | .killed, .exited, false | .killed, .reaped, false =>
      some { v with helper := .reaped, hasPid := false, stop := .closing }
    | _, _, _ => none
  | .close =>
    match v.stop, v.stopper with
    | .closing, some t =>
      (v.channel.next (.shutdownFd t)).map fun channel => { v with channel, stop := .inClose }
    | _, _ => none
  | .closeReturns =>
    match v.stop, v.stopper with
    | .inClose, some t =>
      if v.channel.closing t = .no then some { v with stop := .stopped } else none
    | _, _ => none

/-- A view that was made with this callback. -/
def made (cb : Option κ) : WebhostView ρ κ := { onDied := cb }

/-! ## 2. What a step does -/

/-- **Each step, by what it finds and what it changes.** -/
inductive Does (v : WebhostView ρ κ) : ViewStep ρ κ → WebhostView ρ κ → Prop
  | channel {a : ChannelStep ρ} {channel : SocketChannel ρ} (hpermits : v.permits a = true)
      (hnext : v.channel.next a = some channel) : Does v (.channel a) { v with channel }
  | exits (hhelper : v.helper = .running) : Does v .exits { v with helper := .exited }
  | reapedElsewhere (hhelper : v.helper = .exited) :
    Does v .reapedElsewhere { v with helper := .reaped }
  | setOnDied {cb : Option κ} : Does v (.setOnDied cb) { v with onDied := cb }
  | tooLate (hpump : v.channel.pump = .ended) (hannounce : v.announce = .before)
      (hannounced : v.announced = true) : Does v .exchange { v.touch with announce := .finished }
  | wins (hpump : v.channel.pump = .ended) (hannounce : v.announce = .before)
      (hannounced : v.announced = false) :
    Does v .exchange { v.touch with announced := true, announce := .first }
  | storeDead (hannounce : v.announce = .first) :
    Does v .storeDead { v.touch with alive := false, announce := .dead }
  | nobody (hannounce : v.announce = .dead) (hnone : v.onDied = none) :
    Does v .copy { v.touch with announce := .finished }
  | calls {cb : κ} (hannounce : v.announce = .dead) (hsome : v.onDied = some cb) :
    Does v .copy { v.touch with announce := .calling cb, died := v.died ++ [cb] }
  | callbackReturns {cb : κ} (hannounce : v.announce = .calling cb)
      (hfree : v.free .pump = true) : Does v .callbackReturns { v with announce := .finished }
  | stop {t : Thread} (hstop : v.stop = .before) (hliberty : v.channel.atLiberty t = true)
      (hpump : t = .pump → v.pumpCalls = true) :
    Does v (.stop t) { v with announced := true, stop := .silenced, stopper := some t }
  | terminate (hstop : v.stop = .silenced) (hpid : v.hasPid = true) :
    Does v .terminate { v with
      alive := false, stop := .polling 0, signals := v.signals ++ [(.term, v.helper)] }
  | nothingToEnd (hstop : v.stop = .silenced) (hpid : v.hasPid = false) :
    Does v .terminate { v with alive := false, stop := .closing }
  | stillRunning {n : Nat} (hstop : v.stop = .polling n) (hhelper : v.helper = .running) :
    Does v .poll { v with stop := .polling (n + 1) }
  | reaps {n : Nat} (hstop : v.stop = .polling n) (hhelper : v.helper ≠ .running) :
    Does v .poll { v with helper := .reaped, hasPid := false, stop := .closing }
  | kills {n : Nat} (hstop : v.stop = .polling n) (hlate : kExitGraceMs ≤ n * 20) :
    Does v .kill { v with stop := .killed, signals := v.signals ++ [(.kill, v.helper)] }
  | interrupted (hstop : v.stop = .killed) (hhelper : v.helper = .running) :
    Does v (.wait true) { v with hasPid := false, stop := .closing }
  | waited (hstop : v.stop = .killed) (hhelper : v.helper ≠ .running) :
    Does v (.wait false) { v with helper := .reaped, hasPid := false, stop := .closing }
  | closes {t : Thread} {channel : SocketChannel ρ} (hstop : v.stop = .closing)
      (hstopper : v.stopper = some t) (hnext : v.channel.next (.shutdownFd t) = some channel) :
    Does v .close { v with channel, stop := .inClose }
  | ends {t : Thread} (hstop : v.stop = .inClose) (hstopper : v.stopper = some t)
      (hclosing : v.channel.closing t = .no) : Does v .closeReturns { v with stop := .stopped }

section Steps

variable {v v' : WebhostView ρ κ} {a : ViewStep ρ κ} {t : Thread}

theorem next_does (h : v.next a = some v') : Does v a v' := by
  cases a with
  | channel a =>
    simp only [next, Option.ite_none_right_eq_some, Option.map_eq_some_iff] at h
    obtain ⟨hpermits, channel, hnext, rfl⟩ := h
    exact .channel hpermits hnext
  | exits =>
    simp only [next, Option.ite_none_right_eq_some, Option.some.injEq] at h
    obtain ⟨hhelper, rfl⟩ := h
    exact .exits hhelper
  | reapedElsewhere =>
    simp only [next, Option.ite_none_right_eq_some, Option.some.injEq] at h
    obtain ⟨hhelper, rfl⟩ := h
    exact .reapedElsewhere hhelper
  | setOnDied cb =>
    simp only [next, Option.ite_none_right_eq_some, Option.some.injEq] at h
    obtain ⟨-, rfl⟩ := h
    exact .setOnDied
  | exchange =>
    simp only [next] at h
    split at h
    · next hpump hannounce =>
      split at h
      · next hannounced =>
        cases h
        exact .tooLate hpump hannounce hannounced
      · next hannounced =>
        cases h
        exact .wins hpump hannounce (Bool.eq_false_iff.mpr hannounced)
    · cases h
  | storeDead =>
    simp only [next] at h
    split at h
    · next hannounce =>
      cases h
      exact .storeDead hannounce
    · cases h
  | copy =>
    simp only [next] at h
    split at h
    · next hannounce hnone =>
      cases h
      exact .nobody hannounce hnone
    · next hannounce hsome =>
      cases h
      exact .calls hannounce hsome
    · cases h
  | callbackReturns =>
    simp only [next] at h
    split at h
    · next hannounce =>
      simp only [Option.ite_none_right_eq_some, Option.some.injEq, Bool.and_eq_true] at h
      obtain ⟨⟨-, hfree⟩, rfl⟩ := h
      exact .callbackReturns hannounce hfree
    · cases h
  | stop t =>
    simp only [next, Option.ite_none_right_eq_some, Option.some.injEq, Bool.and_eq_true,
      Bool.or_eq_true, decide_eq_true_eq] at h
    obtain ⟨⟨⟨hstop, hliberty⟩, hpump⟩, rfl⟩ := h
    exact .stop hstop hliberty fun heq => hpump.resolve_left fun hne => hne heq
  | terminate =>
    simp only [next] at h
    split at h
    · next hstop =>
      split at h
      · next hpid =>
        cases h
        exact .terminate hstop hpid
      · next hpid =>
        cases h
        exact .nothingToEnd hstop (Bool.eq_false_iff.mpr hpid)
    · cases h
  | poll =>
    simp only [next] at h
    split at h
    · next hstop =>
      split at h
      · split at h
        · next hhelper =>
          cases h
          exact .stillRunning hstop hhelper
        · next hhelper =>
          cases h
          exact .reaps hstop (by simp [hhelper])
        · next hhelper =>
          cases h
          exact .reaps hstop (by simp [hhelper])
      · cases h
    · cases h
  | kill =>
    simp only [next] at h
    split at h
    · next hstop =>
      split at h
      · cases h
      · next hlate =>
        cases h
        exact .kills hstop (Nat.not_lt.mp hlate)
    · cases h
  | wait interrupted =>
    simp only [next] at h
    split at h
    · next hstop hhelper =>
      cases h
      exact .interrupted hstop hhelper
    · next hstop hhelper =>
      cases h
      exact .waited hstop (by simp [hhelper])
    · next hstop hhelper =>
      cases h
      exact .waited hstop (by simp [hhelper])
    · cases h
  | close =>
    simp only [next] at h
    split at h
    · next hstop hstopper =>
      simp only [Option.map_eq_some_iff] at h
      obtain ⟨channel, hnext, rfl⟩ := h
      exact .closes hstop hstopper hnext
    · cases h
  | closeReturns =>
    simp only [next] at h
    split at h
    · next hstop hstopper =>
      simp only [Option.ite_none_right_eq_some, Option.some.injEq] at h
      obtain ⟨hclosing, rfl⟩ := h
      exact .ends hstop hstopper hclosing
    · cases h

/-! ## 3. The callback -/

/-- What a step says about who came first to `m_announced`. -/
def verdict : ViewStep ρ κ → Option Bool
  | .exchange => some true
  | .stop _ => some false
  | _ => none

/-- Who came first: the pump, or the destructor, or nobody yet. -/
def settled (as : List (ViewStep ρ κ)) : Option Bool := as.findSome? verdict

/-- A step that leaves the callback as it is. -/
def LeavesOnDied : ViewStep ρ κ → Prop
  | .setOnDied _ => False
  | _ => True

/-- What was called so far, by where the pump is, when it was the first or not; `kept` says that
the callback is still the one that the view was made with. -/
def DiedBy (cb : Option κ) (kept first : Prop) [Decidable first] (died : List κ) :
    AnnounceAt κ → Prop
  | .before => ¬ first ∧ died = []
  | .first | .dead => first ∧ died = []
  | .calling cb' => first ∧ died = [cb'] ∧ (kept → cb = some cb')
  | .finished =>
    died.length ≤ 1 ∧ (died ≠ [] → first) ∧ (kept → died = if first then cb.toList else [])

/-- What a run has announced. -/
structure Told (cb : Option κ) (as : List (ViewStep ρ κ)) (v : WebhostView ρ κ) : Prop where
  announced : v.announced = (settled as).isSome
  onDied : (∀ a ∈ as, LeavesOnDied a) → v.onDied = cb
  died : DiedBy cb (∀ a ∈ as, LeavesOnDied a) (settled as = some true) v.died v.announce

theorem DiedBy.mono {cb : Option κ} {kept kept' first : Prop} [Decidable first] {died : List κ}
    {announce : AnnounceAt κ} (h : DiedBy cb kept first died announce) (hkept : kept' → kept) :
    DiedBy cb kept' first died announce := by
  cases announce with
  | before | first | dead => exact h
  | calling cb' => exact ⟨h.1, h.2.1, fun hk => h.2.2 (hkept hk)⟩
  | finished => exact ⟨h.1, h.2.1, fun hk => h.2.2 (hkept hk)⟩

theorem settled_append (as : List (ViewStep ρ κ)) (a : ViewStep ρ κ) :
    settled (as ++ [a]) = (settled as).or (verdict a) := by
  simp [settled, List.findSome?_append]

/-- A step after which the same has been settled. -/
theorem Told.stays {cb : Option κ} {as : List (ViewStep ρ κ)} (h : Told cb as v)
    (hsettled : settled (as ++ [a]) = settled as) (hannounced : v'.announced = v.announced)
    (honDied : LeavesOnDied a → v'.onDied = v.onDied) (hdied : v'.died = v.died)
    (hannounce : v'.announce = v.announce) : Told cb (as ++ [a]) v' := by
  have hkept : (∀ b ∈ as ++ [a], LeavesOnDied b) → ∀ b ∈ as, LeavesOnDied b :=
    fun hall b hb => hall b (List.mem_append_left _ hb)
  refine ⟨?_, fun hall => ?_, ?_⟩
  · rw [hannounced, hsettled, h.announced]
  · rw [honDied (hall a (by simp)), h.onDied (hkept hall)]
  · simp only [hsettled, hdied, hannounce]
    exact h.died.mono hkept

theorem Told.next {cb : Option κ} {as : List (ViewStep ρ κ)} (h : Told cb as v)
    (hstep : v.next a = some v') : Told cb (as ++ [a]) v' := by
  have hsame : verdict a = none → settled (as ++ [a]) = settled as := by
    intro hnone
    rw [settled_append, hnone, Option.or_none]
  have hkept : (∀ b ∈ as ++ [a], LeavesOnDied b) → ∀ b ∈ as, LeavesOnDied b :=
    fun hall b hb => hall b (List.mem_append_left _ hb)
  have hdied := h.died
  cases next_does hstep with
  | channel | exits | reapedElsewhere | terminate | nothingToEnd | stillRunning | reaps | kills
  | interrupted | waited | closes | ends => exact h.stays (hsame rfl) rfl (fun _ => rfl) rfl rfl
  | setOnDied => exact h.stays (hsame rfl) rfl False.elim rfl rfl
  | tooLate _ hannounce hannounced =>
    -- the destructor was the first, and it stays the first
    have hsome : (settled as).isSome := h.announced.symm.trans hannounced
    have hsettled : settled (as ++ [.exchange]) = settled as := by
      rw [settled_append, Option.or_of_isSome hsome]
    rw [hannounce] at hdied
    obtain ⟨hnot, hnone⟩ := hdied
    refine ⟨by rw [hsettled]; exact h.announced, fun hall => h.onDied (hkept hall), ?_⟩
    simp only [hsettled]
    refine ⟨?_, fun hne => absurd hnone hne, fun _ => ?_⟩
    · simp [touch, hnone]
    · rw [if_neg hnot]
      exact hnone
  | wins _ hannounce hannounced =>
    have hnone : settled as = none := by
      rw [← Option.not_isSome_iff_eq_none, ← h.announced, hannounced]
      nofun
    have hsettled : settled (as ++ [.exchange]) = some true := by
      rw [settled_append, hnone]
      rfl
    rw [hannounce] at hdied
    refine ⟨by rw [hsettled]; rfl, fun hall => h.onDied (hkept hall), ?_⟩
    exact ⟨hsettled, hdied.2⟩
  | storeDead hannounce =>
    rw [hannounce] at hdied
    refine ⟨by rw [hsame rfl]; exact h.announced, fun hall => h.onDied (hkept hall), ?_⟩
    exact ⟨(hsame rfl).trans hdied.1, hdied.2⟩
  | nobody hannounce hnone =>
    rw [hannounce] at hdied
    refine ⟨by rw [hsame rfl]; exact h.announced, fun hall => h.onDied (hkept hall), ?_⟩
    have hcb : (∀ b ∈ as ++ [.copy], LeavesOnDied b) → cb = none := fun hall =>
      (h.onDied (hkept hall)).symm.trans hnone
    refine ⟨?_, fun hne => absurd hdied.2 hne, fun hall => ?_⟩
    · simp [touch, hdied.2]
    · rw [hcb hall, Option.toList_none, ite_self]
      exact hdied.2
  | @calls cb' hannounce hsome =>
    rw [hannounce] at hdied
    refine ⟨by rw [hsame rfl]; exact h.announced, fun hall => h.onDied (hkept hall), ?_⟩
    refine ⟨(hsame rfl).trans hdied.1, ?_, fun hall => ?_⟩
    · simp [hdied.2]
    · exact (h.onDied (hkept hall)).symm.trans hsome
  | @callbackReturns cb' hannounce =>
    rw [hannounce] at hdied
    obtain ⟨hfirst, hone, hcb⟩ := hdied
    refine ⟨by rw [hsame rfl]; exact h.announced, fun hall => h.onDied (hkept hall), ?_⟩
    have hsettled : settled (as ++ [.callbackReturns]) = some true := (hsame rfl).trans hfirst
    refine ⟨?_, fun _ => hsettled, fun hall => ?_⟩
    · simp [hone]
    · rw [if_pos hsettled, hcb (hkept hall)]
      exact hone
  | @stop t =>
    have hsettled : settled (as ++ [.stop t]) = some true ↔ settled as = some true := by
      rw [settled_append]
      cases settled as with
      | none => simp [verdict]
      | some b => simp
    refine ⟨?_, fun hall => h.onDied (hkept hall), ?_⟩
    · simp [settled_append, verdict]
    · simp only [hsettled]
      exact hdied.mono hkept

end Steps

/-! ## 4. The view and its channel -/

section Channel

variable {c c' : SocketChannel ρ} {a : ChannelStep ρ}

/-- Where a step of the channel leaves its pump. -/
theorem pump_of_next (h : c.next a = some c') :
    (c.finished = true → c'.finished = true) ∧
      (c'.pump = .done → c.pump = .done ∨ a = .eofReturns) := by
  cases SocketChannel.next_does h with
  | looksOut hpump | receives hpump | gets hpump | interrupted hpump | ends hpump | noLine hpump
  | hands hpump | receiverReturns hpump =>
    refine ⟨fun hover => ?_, by simp⟩
    simp [SocketChannel.finished, hpump] at hover
  | leaves => exact ⟨fun _ => rfl, by simp⟩
  | eofReturns => exact ⟨fun _ => rfl, fun _ => Or.inr rfl⟩
  | skips | setReceiver | refuses | sends | sendsMore | sent | shutsDown | nothingToJoin | detaches
  | waits | joins => exact ⟨id, Or.inl⟩

/-- Once the pump is detached there is nothing to join. -/
theorem detached_of_next (hs : c.Sound) (h : c.next a = some c') (hthread : c.thread = .detached) :
    c'.thread = .detached := by
  cases SocketChannel.next_does h with
  | joins hjoining => exact absurd ((hs.joining _ hjoining).1.symm.trans hthread) nofun
  | detaches => rfl
  | looksOut | receives | gets | interrupted | ends | noLine | skips | hands | receiverReturns
  | leaves | eofReturns | setReceiver | refuses | sends | sendsMore | sent | shutsDown
  | nothingToJoin | waits => exact hthread

/-- How the pump gets into `close`, and is detached. -/
theorem closing_pump_of_next (h : c.next a = some c') :
    (c'.closing .pump ≠ .no → c.closing .pump ≠ .no ∨ a = .shutdownFd .pump) ∧
      (c'.thread = .detached → c.thread = .detached ∨ c.closing .pump ≠ .no) := by
  cases SocketChannel.next_does h with
  | @shutsDown t =>
    refine ⟨fun hno => ?_, Or.inl⟩
    by_cases ht : t = .pump
    · exact Or.inr (ht ▸ rfl)
    · refine Or.inl fun hsame => hno ?_
      exact SocketChannel.closing_update.mpr (Or.inr ⟨Ne.symm ht, hsame⟩)
  | nothingToJoin hlocking =>
    refine ⟨fun hno => Or.inl fun hsame => hno ?_, Or.inl⟩
    refine SocketChannel.closing_update.mpr (Or.inr ⟨?_, hsame⟩)
    rintro rfl
    exact absurd (hsame.symm.trans hlocking) nofun
  | detaches hlocking =>
    have hin : c.closing .pump ≠ .no := by simp [hlocking]
    exact ⟨fun _ => Or.inl hin, fun _ => Or.inr hin⟩
  | waits _ _ _ hother =>
    refine ⟨fun hno => Or.inl fun hsame => hno ?_, Or.inl⟩
    exact SocketChannel.closing_update.mpr (Or.inr ⟨hother.symm, hsame⟩)
  | joins hjoining =>
    refine ⟨fun hno => Or.inl fun hsame => hno ?_, nofun⟩
    refine SocketChannel.closing_update.mpr (Or.inr ⟨?_, hsame⟩)
    rintro rfl
    exact absurd (hsame.symm.trans hjoining) nofun
  | looksOut | receives | gets | interrupted | ends | noLine | skips | hands | receiverReturns
  | leaves | eofReturns | setReceiver | refuses | sends | sendsMore | sent =>
    exact ⟨Or.inl, Or.inl⟩

theorem closed_of_next (h : c.next a = some c') (hclosed : c.closed = true) :
    c'.closed = true := by
  cases SocketChannel.next_does h with
  | leaves | shutsDown => rfl
  | looksOut | receives | gets | interrupted | ends | noLine | skips | hands | receiverReturns
  | eofReturns | setReceiver | refuses | sends | sendsMore | sent | nothingToJoin | detaches | waits
  | joins => exact hclosed

end Channel

/-- The pump is through with `announceDeath`, but for the callback. -/
def late (v : WebhostView ρ κ) : Bool :=
  match v.announce with
  | .calling _ | .finished => true
  | _ => false

/-- Nobody is waited for any more. -/
def released (v : WebhostView ρ κ) : Prop :=
  v.channel.pump = .done ∨ v.channel.thread = .detached

/-- How far the two sides can be. -/
structure Sound (v : WebhostView ρ κ) : Prop where
  channel : v.channel.Sound
  announce : v.announce = .before ∨ v.channel.finished = true
  done : v.channel.pump = .done → v.announce = .finished
  silent : v.stop ≠ .before → v.announced = true
  alive : v.stop ≠ .before → v.stop ≠ .silenced → v.alive = false
  closed : v.stop = .inClose ∨ v.stop = .stopped → v.channel.closed = true
  inClose : v.stop = .inClose → ∃ t, v.stopper = some t ∧ (v.channel.closing t ≠ .no ∨ v.released)
  stopped : v.stop = .stopped → v.released

section Steps

variable {v v' : WebhostView ρ κ} {a : ViewStep ρ κ} {t : Thread}

theorem sound_made (cb : Option κ) : Sound (made cb : WebhostView ρ κ) where
  channel := SocketChannel.sound_init
  announce := Or.inl rfl
  done := nofun
  silent h := absurd rfl h
  alive h := absurd rfl h
  closed := by
    rintro (h | h) <;> cases h
  inClose := nofun
  stopped := nofun

/-- A step of the channel. -/
theorem Sound.channels {c : SocketChannel ρ} {b : ChannelStep ρ} (h : Sound v)
    (hpermits : v.permits b = true) (hnext : v.channel.next b = some c) :
    Sound { v with channel := c } := by
  have hsound := h.channel.next hnext
  obtain ⟨hover, hdone⟩ := pump_of_next hnext
  have hreleased : v.released → ({ v with channel := c } : WebhostView ρ κ).released := by
    rintro (hpump | hthread)
    · exact Or.inl (SocketChannel.next_done h.channel hpump hnext).1
    · exact Or.inr (detached_of_next h.channel hnext hthread)
  refine { h with
    channel := hsound
    announce := h.announce.imp_right hover
    done := fun hpump => ?_
    closed := fun hstop => closed_of_next hnext (h.closed hstop)
    inClose := fun hstop => ?_
    stopped := fun hstop => hreleased (h.stopped hstop) }
  · rcases hdone hpump with hbefore | rfl
    · exact h.done hbefore
    · revert hpermits
      cases hannounce : v.announce <;> simp [permits, hannounce]
  · obtain ⟨t, hstopper, hclosing⟩ := h.inClose hstop
    refine ⟨t, hstopper, ?_⟩
    rcases hclosing with hclosing | hdone
    · by_cases hno : c.closing t = .no
      · exact Or.inr (SocketChannel.next_returns h.channel hclosing hnext hno)
      · exact Or.inl hno
    · exact Or.inr (hreleased hdone)

/-- The pump goes on in `announceDeath`. -/
theorem Sound.announces {announce : AnnounceAt κ} {announced alive touched : Bool} {died : List κ}
    (h : Sound v) (hover : v.channel.finished = true)
    (hdone : v.channel.pump = .done → announce = .finished)
    (hannounced : announced = v.announced ∨ announced = true)
    (halive : alive = v.alive ∨ alive = false) :
    Sound { v with announce, announced, alive, touched, died } where
  channel := h.channel
  announce := Or.inr hover
  done := hdone
  silent hstop := by
    rcases hannounced with heq | heq
    · exact heq.trans (h.silent hstop)
    · exact heq
  alive hstop hstop' := by
    rcases halive with heq | heq
    · exact heq.trans (h.alive hstop hstop')
    · exact heq
  closed := h.closed
  inClose := h.inClose
  stopped := h.stopped

/-- Past `announceDeath`'s exchange the descriptor is closed, and the pump is not done yet. -/
theorem Sound.announcing (h : Sound v) (hbefore : v.announce ≠ .before)
    (hover : v.announce ≠ .finished) : v.channel.finished = true ∧ v.channel.pump ≠ .done :=
  ⟨h.announce.resolve_left hbefore, fun hdone => hover (h.done hdone)⟩

/-- The destructor goes on, before its call of `close`. -/
theorem Sound.stops {stop : StopAt} {helper : Helper} {hasPid : Bool}
    {signals : List (Signal × Helper)} (h : Sound v) (hbegun : v.stop ≠ .before)
    (hstop : stop ≠ .inClose ∧ stop ≠ .stopped) :
    Sound { v with alive := false, stop, helper, hasPid, signals } where
  channel := h.channel
  announce := h.announce
  done := h.done
  silent _ := h.silent hbegun
  alive _ _ := rfl
  closed := by
    rintro (heq | heq)
    · exact absurd heq hstop.1
    · exact absurd heq hstop.2
  inClose heq := absurd heq hstop.1
  stopped heq := absurd heq hstop.2

/-- **Every step keeps it.** -/
theorem Sound.next (h : Sound v) (hstep : v.next a = some v') : Sound v' := by
  cases next_does hstep with
  | channel hpermits hnext => exact h.channels hpermits hnext
  | exits | reapedElsewhere | setOnDied => exact { h with }
  | tooLate hpump =>
    exact h.announces (by simp [SocketChannel.finished, hpump]) (fun _ => rfl) (Or.inl rfl)
      (Or.inl rfl)
  | wins hpump =>
    refine h.announces (by simp [SocketChannel.finished, hpump]) ?_ (Or.inr rfl) (Or.inl rfl)
    simp [hpump]
  | storeDead hannounce =>
    obtain ⟨hover, hpump⟩ := h.announcing (by simp [hannounce]) (by simp [hannounce])
    exact h.announces hover (fun hdone => absurd hdone hpump) (Or.inl rfl) (Or.inr rfl)
  | nobody hannounce =>
    obtain ⟨hover, -⟩ := h.announcing (by simp [hannounce]) (by simp [hannounce])
    exact h.announces hover (fun _ => rfl) (Or.inl rfl) (Or.inl rfl)
  | calls hannounce =>
    obtain ⟨hover, hpump⟩ := h.announcing (by simp [hannounce]) (by simp [hannounce])
    exact h.announces hover (fun hdone => absurd hdone hpump) (Or.inl rfl) (Or.inl rfl)
  | callbackReturns hannounce =>
    obtain ⟨hover, -⟩ := h.announcing (by simp [hannounce]) (by simp [hannounce])
    exact h.announces hover (fun _ => rfl) (Or.inl rfl) (Or.inl rfl)
  | stop =>
    exact { h with
      silent := fun _ => rfl
      alive := fun _ hne => absurd rfl hne
      closed := by simp
      inClose := by simp
      stopped := by simp }
  | terminate hstop | nothingToEnd hstop => exact h.stops (by simp [hstop]) (by simp)
  | stillRunning hstop | reaps hstop | kills hstop | interrupted hstop | waited hstop =>
    have halive : v.alive = false := h.alive (by simp [hstop]) (by simp [hstop])
    have hstops := fun stop helper hasPid signals =>
      @Sound.stops _ _ v stop helper hasPid signals h (by simp [hstop])
    rw [← halive] at hstops
    exact hstops _ _ _ _ (by simp)
  | @closes t channel hstop hstopper hnext =>
    have hsound := h.channel.next hnext
    obtain ⟨hover, hdone⟩ := pump_of_next hnext
    have hclosing : channel.closing t ≠ .no ∧ channel.closed = true := by
      cases SocketChannel.next_does hnext with
      | shutsDown => exact ⟨by simp [SocketChannel.shutdownFd], rfl⟩
    exact { h with
      channel := hsound
      announce := h.announce.imp_right hover
      done := fun hpump => h.done ((hdone hpump).resolve_right (by simp))
      silent := fun _ => h.silent (by simp [hstop])
      alive := fun _ _ => h.alive (by simp [hstop]) (by simp [hstop])
      closed := fun _ => hclosing.2
      inClose := fun _ => ⟨t, hstopper, Or.inl hclosing.1⟩
      stopped := by simp }
  | ends hstop hstopper hclosing =>
    obtain ⟨u, hu, hreleased⟩ := h.inClose hstop
    obtain rfl := Option.some.inj (hstopper.symm.trans hu)
    exact { h with
      silent := fun _ => h.silent (by simp [hstop])
      alive := fun _ _ => h.alive (by simp [hstop]) (by simp [hstop])
      closed := fun _ => h.closed (Or.inl hstop)
      inClose := by simp
      stopped := fun _ => hreleased.resolve_left fun hne => hne hclosing }

end Steps

/-- What a view is after these steps, where each can be taken. -/
def after (cb : Option String) (steps : List (ViewStep Unit String)) : WebhostView Unit String :=
  (runActions next (made cb) steps).getD (made cb)

theorem run_after {cb : Option String} {steps : List (ViewStep Unit String)}
    (h : (runActions next (made cb) steps).isSome) :
    runActions next (made cb) steps = some (after cb steps) := by
  obtain ⟨v, hv⟩ := Option.isSome_iff_exists.mp h
  rw [after, hv, Option.getD_some]

/-- The page goes away, and the pump finds out; the view is destroyed while it does. -/
def lost : List (ViewStep Unit String) :=
  [.exits, .channel .look, .channel (.recv .ended), .channel .leave, .exchange, .stop (.user 0),
    .storeDead, .copy, .callbackReturns, .channel .eofReturns]

section Process

variable {v v' : WebhostView ρ κ} {a : ViewStep ρ κ}

/-- Nobody else waits for the process, and the last wait is not interrupted. -/
def Undisturbed : ViewStep ρ κ → Prop
  | .reapedElsewhere | .wait true => False
  | _ => True

/-- What the process is by the time the destructor has got so far. -/
def HelperAt (helper : Helper) (hasPid : Bool) : StopAt → Prop
  | .before | .silenced => helper ≠ .reaped ∧ hasPid = true
  | .polling _ | .killed => helper ≠ .reaped
  | .closing | .inClose | .stopped => helper = .reaped ∧ hasPid = false

/-- The process is waited for once, and no signal is sent to it afterwards. -/
structure Waited (v : WebhostView ρ κ) : Prop where
  helper : HelperAt v.helper v.hasPid v.stop
  signals : ∀ x ∈ v.signals, x.2 ≠ .reaped

theorem Waited.next (h : Waited v) (hundisturbed : Undisturbed a) (hstep : v.next a = some v') :
    Waited v' := by
  have hhelper := h.helper
  cases next_does hstep with
  | channel | setOnDied | tooLate | wins | storeDead | nobody | calls | callbackReturns =>
    exact { h with }
  | reapedElsewhere | interrupted => exact hundisturbed.elim
  | exits hrunning =>
    refine { h with helper := ?_ }
    revert hhelper
    cases v.stop <;> simp [HelperAt, hrunning]
  | stop hstop | stillRunning hstop | closes hstop | ends hstop =>
    rw [hstop] at hhelper
    exact ⟨hhelper, h.signals⟩
  | terminate hstop =>
    rw [hstop] at hhelper
    exact ⟨hhelper.1, List.forall_mem_append.mpr ⟨h.signals, by simpa using hhelper.1⟩⟩
  | nothingToEnd hstop hpid =>
    rw [hstop] at hhelper
    exact absurd (hhelper.2.symm.trans hpid) nofun
  | reaps | waited => exact ⟨⟨rfl, rfl⟩, h.signals⟩
  | kills hstop =>
    rw [hstop] at hhelper
    have hnot : v.helper ≠ .reaped := hhelper
    exact ⟨hhelper, List.forall_mem_append.mpr ⟨h.signals, by simpa using hnot⟩⟩

/-- **A view that was destroyed leaves nothing behind**: its process has been waited for, its channel
is closed, and its pump has ended, unless it was detached.  No signal was sent to a process that had
been waited for, whose number may be another's by then. -/
theorem ended_of_run {cb : Option κ}
    (h : Reaches (fun v a v' => v.next a = some v') (fun _ a => Undisturbed a)
      (made cb : WebhostView ρ κ) v) :
    (∀ x ∈ v.signals, x.2 ≠ .reaped) ∧
      (v.stop = .stopped → v.helper = .reaped ∧ v.hasPid = false ∧ v.isAlive = false ∧
        v.channel.isOpen = false ∧
          (v.channel.thread = .detached ∨ v.channel.pump = .done ∧ v.announce = .finished)) := by
  have hsound : Sound v := h.invariant (sound_made cb) fun hv _ hnext => hv.next hnext
  have hwaited : Waited v := by
    refine h.invariant ⟨⟨nofun, rfl⟩, List.forall_mem_nil _⟩ ?_
    exact fun hv hundisturbed hnext => hv.next hundisturbed hnext
  refine ⟨hwaited.signals, fun hstop => ?_⟩
  have hhelper := hwaited.helper
  rw [hstop] at hhelper
  refine ⟨hhelper.1, hhelper.2, hsound.alive (by simp [hstop]) (by simp [hstop]), ?_, ?_⟩
  · simp [SocketChannel.isOpen, hsound.closed (Or.inr hstop)]
  · rcases hsound.stopped hstop with hdone | hdetached
    · exact Or.inr ⟨hdone, hsound.done hdone⟩
    · exact Or.inl hdetached

/-- A page that exits when it is asked to. -/
def unloaded : List (ViewStep Unit String) :=
  [.stop (.user 0), .terminate, .poll, .exits, .poll, .close, .channel (.lock (.user 0)),
    .channel .look, .channel .leave, .exchange, .channel .eofReturns, .channel (.join (.user 0)),
    .closeReturns]

theorem ended_unloaded : (after none unloaded).helper = .reaped ∧
    (after none unloaded).channel.isOpen = false := by
  have hrun := @runActions_reaches_of _ _ next (fun _ => True) (fun _ a => Undisturbed a)
    (made none) unloaded _ _ (fun _ a ha _ => by revert a; simp [unloaded, Undisturbed])
    (fun _ _ _ _ _ _ => trivial) trivial .refl (@run_after none unloaded rfl)
  obtain ⟨-, hended⟩ := ended_of_run hrun
  obtain ⟨hhelper, -, -, hopen, -⟩ := hended rfl
  exact ⟨hhelper, hopen⟩

end Process

/-! ## 6. The pump and a view that is gone -/

section Gone

variable {v v' : WebhostView ρ κ} {a : ViewStep ρ κ}

/-- It is not a receiver that closes the channel or destroys the view. -/
def NotFromReceiver (v : WebhostView ρ κ) (a : ViewStep ρ κ) : Prop :=
  a = .channel (.shutdownFd .pump) ∨ a = .stop .pump → ∀ cb, v.channel.pump ≠ .delivering cb

/-- The pump closes the channel and destroys the view from the callback alone. -/
structure Untouched (v : WebhostView ρ κ) : Prop where
  pump : v.channel.closing .pump ≠ .no ∨ v.channel.thread = .detached ∨ v.stopper = some .pump →
    v.late = true
  touched : v.touched = false

/-- What the pump runs is the callback, where it is not a receiver. -/
theorem late_of_pumpCalls (hcalls : v.pumpCalls = true)
    (hreceiver : ∀ cb, v.channel.pump ≠ .delivering cb) : v.late = true := by
  unfold pumpCalls at hcalls
  split at hcalls
  · next hpump => exact absurd hpump (hreceiver _)
  · next _ hannounce => simp [late, hannounce]
  · cases hcalls

/-- While the pump is not through, the view is there. -/
theorem not_stopped (h : Sound v) (hu : Untouched v) (hlate : v.late = false) :
    v.stop ≠ .stopped := by
  intro hstop
  rcases h.stopped hstop with hdone | hdetached
  · simp [late, h.done hdone] at hlate
  · rw [hu.pump (Or.inr (Or.inl hdetached))] at hlate
    cases hlate

/-- A step of the channel. -/
theorem Untouched.channels {c : SocketChannel ρ} {b : ChannelStep ρ} (hu : Untouched v)
    (hnext : v.channel.next b = some c)
    (hlate : b = .shutdownFd .pump → v.late = true) (stop : StopAt) :
    Untouched { v with channel := c, stop } := by
  obtain ⟨hclosing, hthread⟩ := closing_pump_of_next hnext
  refine ⟨?_, hu.touched⟩
  rintro (hno | hdetached | hstopper)
  · rcases hclosing hno with hno' | hb
    · exact hu.pump (Or.inl hno')
    · exact hlate hb
  · rcases hthread hdetached with hdetached' | hno'
    · exact hu.pump (Or.inr (Or.inl hdetached'))
    · exact hu.pump (Or.inl hno')
  · exact hu.pump (Or.inr (Or.inr hstopper))

/-- A member is used by a pump that is not through. -/
theorem Untouched.announces {announce : AnnounceAt κ} {announced alive : Bool} {died : List κ}
    (h : Sound v) (hu : Untouched v) (hlate : v.late = false) :
    Untouched { v.touch with announce, announced, alive, died } := by
  refine ⟨fun hpump => ?_, ?_⟩
  · rw [hu.pump hpump] at hlate
    cases hlate
  · simp [touch, hu.touched, not_stopped h hu hlate]

theorem Untouched.next (h : Sound v) (hu : Untouched v) (hnot : NotFromReceiver v a)
    (hstep : v.next a = some v') : Untouched v' := by
  cases next_does hstep with
  | @channel b c hpermits hnext =>
    refine hu.channels hnext (fun hb => ?_) v.stop
    subst hb
    have hmay : (v.free .pump && (decide (Thread.pump ≠ .pump) || v.pumpCalls)) = true := hpermits
    exact late_of_pumpCalls (by simpa using (Bool.and_eq_true_iff.mp hmay).2) (hnot (Or.inl rfl))
  | tooLate _ hannounce | wins _ hannounce =>
    exact hu.announces h (by simp [late, hannounce])
  | storeDead hannounce | nobody hannounce | calls hannounce =>
    exact hu.announces h (by simp [late, hannounce])
  | callbackReturns => exact ⟨fun _ => rfl, hu.touched⟩
  | @stop t _ _ hpump =>
    refine ⟨?_, hu.touched⟩
    rintro (hno | hdetached | hstopper)
    · exact hu.pump (Or.inl hno)
    · exact hu.pump (Or.inr (Or.inl hdetached))
    · obtain rfl : t = .pump := Option.some.inj hstopper
      exact late_of_pumpCalls (hpump rfl) (hnot (Or.inr rfl))
  | closes _ hstopper hnext =>
    refine hu.channels hnext (fun hb => hu.pump (Or.inr (Or.inr ?_))) _
    cases hb
    exact hstopper
  | exits | reapedElsewhere | setOnDied | terminate | nothingToEnd | stillRunning | reaps | kills
  | interrupted | waited | ends => exact ⟨hu.pump, hu.touched⟩

/-- **The pump does not use a view that is gone**, in every order of steps in which no receiver
closes the channel or destroys the view. -/
theorem untouched_of_run {cb : Option κ}
    (h : Reaches (fun v a v' => v.next a = some v') NotFromReceiver
      (made cb : WebhostView ρ κ) v) : v.touched = false := by
  have hmade : Untouched (made cb : WebhostView ρ κ) := by
    refine ⟨?_, rfl⟩
    rintro (hno | hdetached | hstopper)
    · exact absurd rfl hno
    · cases hdetached
    · cases hstopper
  have hu : Untouched v := h.invariant_beside (sound_made cb) (fun hv hnext => hv.next hnext) hmade
    fun hv hu hnot hnext => hu.next hv hnot hnext
  exact hu.touched

theorem untouched_unloaded : (after none unloaded).touched = false := by
  refine @untouched_of_run _ _ _ none (@runActions_reaches_of _ _ next (fun _ => True)
    NotFromReceiver (made none) unloaded _ _ (fun v a ha _ => ?_) (fun _ _ _ _ _ _ => trivial)
    trivial .refl (@run_after none unloaded rfl))
  rintro (rfl | rfl) <;> simp [unloaded] at ha

/-- **A receiver that closes the channel leaves the pump with a view that may be gone.** -/
theorem touched_of_receiver : (after none [.channel (.setReceiver (.user 0) (some ())),
    .channel .look, .channel (.recv (.data [104, newline])), .channel .scan,
    .channel (.shutdownFd .pump), .channel (.lock .pump), .stop (.user 0), .terminate, .exits,
    .poll, .close, .channel (.lock (.user 0)), .closeReturns, .channel .receiverReturns, .channel .scan,
    .channel .look, .channel .leave, .exchange]).touched = true := by decide

end Gone

end WebhostView

end Logosctl
