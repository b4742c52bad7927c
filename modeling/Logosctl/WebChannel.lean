/-
# The channel to a page

The daemon and the process that hosts a page exchange texts over a socket, one on a line.  A write
sends its frame in as many parts as the system takes it in, and gives up on an error; the other
end reads pieces and hands over what is on the lines.

What is handed over is the lines of the stream, however it comes in pieces (`pump_eq`), so when
every write goes through it is what was written (`channel_lossless`).  A write that gives up leaves
the part of its frame that is already out in the stream, and the channel open: the next write that
goes through ends the line it began (`unspliced_iff`).
-/
import Logosctl.Library.Lines
import Logosctl.Library.Transition

namespace Logosctl

open Library

/-! ## 1. Writing -/

/-- What `send` answers: how much it took, EINTR, or any other error. -/
inductive SendAnswer
  | sent (n : Nat)
  | interrupted
  | failed
  deriving DecidableEq

/-- The flag, whether there is a descriptor, and what has gone out on it. -/
structure SocketState where
  closed : Bool := false
  hasFd : Bool := true
  wire : List UInt8 := []
  deriving DecidableEq

namespace SocketState

/-- The loop of `write`, `sent` bytes of the frame being out: what it returns, and how many are out
then; none while it waits for an answer. -/
def sendAll (frame : List UInt8) : Nat → List SendAnswer → Option (Bool × Nat)
  | sent, [] => if sent < frame.length then none else some (true, sent)
  | sent, answer :: answers =>
    if sent < frame.length then
      match answer with
      | .interrupted => sendAll frame sent answers
      | .failed | .sent 0 => some (false, sent)
      | .sent (n + 1) => sendAll frame (sent + min (n + 1) (frame.length - sent)) answers
    else some (true, sent)

/-- A message as it goes out. -/
def frame (message : List UInt8) : List UInt8 := message ++ [newline]

/-- `SocketState::write`. -/
def write (s : SocketState) (message : List UInt8) (answers : List SendAnswer) :
    Option (Bool × SocketState) :=
  if s.closed || !s.hasFd then some (false, s)
  else
    (sendAll (frame message) 0 answers).map fun (ok, sent) =>
      (ok, { s with wire := s.wire ++ (frame message).take sent })

/-- `SocketState::shutdownFd`. -/
def shutdownFd (s : SocketState) : SocketState := { s with closed := true }

/-! ## 2. Reading -/

/-- One turn of the pump: what `recv` answers, or that the loop is left, on EOF, on an error or on a
channel that is closed. -/
inductive RecvAnswer
  | data (chunk : List UInt8)
  | interrupted
  | ended
  deriving DecidableEq

/-- `SocketState::pump`, with a receiver or without: the lines handed to it. -/
def pump (receiving : Bool) (inbox : List UInt8) : List RecvAnswer → List (List UInt8)
  | [] | .ended :: _ => []
  | .interrupted :: answers => pump receiving inbox answers
  | .data chunk :: answers =>
    let (found, left) := takeLines newline (inbox ++ chunk)
    (found.filter fun line => !line.isEmpty && receiving) ++ pump receiving left answers

/-- What is received before the loop is left. -/
def received : List RecvAnswer → List UInt8
  | [] | .ended :: _ => []
  | .interrupted :: answers => received answers
  | .data chunk :: answers => chunk ++ received answers

end SocketState

/-! ## 3. A channel in use -/

/-- A call of `write`, and what `send` answers in it. -/
structure Attempt where
  message : List UInt8
  answers : List SendAnswer
  deriving DecidableEq

/-- What is done to the writing end; the pump closes it when it falls out. -/
inductive ChannelCall
  | write (a : Attempt)
  | shutdownFd
  | pumpEnds
  deriving DecidableEq

/-- The writing end, and the messages it was given, each with what `write` returned. -/
structure Channel where
  socket : SocketState := {}
  written : List (List UInt8 × Bool) := []
  deriving DecidableEq

def Channel.next (c : Channel) : ChannelCall → Option Channel
  | .write a =>
    (c.socket.write a.message a.answers).map fun (ok, socket) =>
      ⟨socket, c.written ++ [(a.message, ok)]⟩
  | .shutdownFd => some { c with socket := c.socket.shutdownFd }
  | .pumpEnds => some { c with socket := { c.socket with closed := true, hasFd := false } }

/-- The messages whose write returned true. -/
def Channel.accepted (c : Channel) : List (List UInt8) :=
  (c.written.filter Prod.snd).map Prod.fst

/-- How much of a frame the answers take before one that ends the loop. -/
def bytesTaken : List SendAnswer → Nat
  | [] | .failed :: _ | .sent 0 :: _ => 0
  | .interrupted :: answers => bytesTaken answers
  | .sent (n + 1) :: answers => n + 1 + bytesTaken answers

namespace Attempt

/-- The whole frame is taken. -/
def GoesThrough (a : Attempt) : Prop :=
  (SocketState.frame a.message).length ≤ bytesTaken a.answers

instance (a : Attempt) : Decidable a.GoesThrough := inferInstanceAs (Decidable (_ ≤ _))

/-- An error comes with some of the frame out, and not all. -/
def StopsMidway (a : Attempt) : Prop := 0 < bytesTaken a.answers ∧ ¬ a.GoesThrough

instance (a : Attempt) : Decidable a.StopsMidway := inferInstanceAs (Decidable (_ ∧ _))

/-- What goes out. -/
def out (a : Attempt) : List UInt8 := (SocketState.frame a.message).take (bytesTaken a.answers)

end Attempt

/-- The calls of `write` on a channel that is not closed yet. -/
def whileOpen : List ChannelCall → List Attempt
  | .write a :: calls => a :: whileOpen calls
  | _ => []

/-! ## 4. What the pump hands over -/

namespace SocketState

/-- **The pump hands over the lines of the stream**, without the empty ones. -/
theorem pump_eq {inbox : List UInt8} (h : newline ∉ inbox) (answers : List RecvAnswer) :
    pump true inbox answers =
      (lines newline (inbox ++ received answers)).filter fun line => !line.isEmpty := by
  induction answers generalizing inbox with
  | nil => simp [pump, received, (lines_of_notMem h).1]
  | cons answer answers ih =>
    cases answer with
    | ended => simp [pump, received, (lines_of_notMem h).1]
    | interrupted => exact ih h
    | data chunk =>
      obtain ⟨hlines, -⟩ := @lines_append _ _ _ newline (inbox ++ chunk) (received answers)
      simp only [pump, received, takeLines_eq, Bool.and_true]
      rw [ih (notMem_unfinished _), ← List.append_assoc, hlines, List.filter_append]

/-- How the loop of a write ends: with the whole frame out, or at an error with what was taken. -/
theorem sendAll_eq_some {frame : List UInt8} {answers : List SendAnswer} {sent k : Nat} {ok : Bool}
    (hsent : sent ≤ frame.length) (h : sendAll frame sent answers = some (ok, k)) :
    (ok = true ∧ k = frame.length ∧ frame.length ≤ sent + bytesTaken answers) ∨
      (ok = false ∧ k = sent + bytesTaken answers ∧ k < frame.length) := by
  induction answers generalizing sent with
  | nil =>
    unfold sendAll at h
    split at h
    · cases h
    · cases h
      exact Or.inl ⟨rfl, by omega, by omega⟩
  | cons answer answers ih =>
    unfold sendAll at h
    split at h
    · next hlt =>
      split at h
      · exact ih hsent h
      · cases h
        exact Or.inr ⟨rfl, rfl, hlt⟩
      · cases h
        exact Or.inr ⟨rfl, rfl, hlt⟩
      · next n =>
        rcases ih (by omega) h with ⟨hok, hk, htaken⟩ | ⟨hok, hk, hshort⟩
        · exact Or.inl ⟨hok, hk, by simp only [bytesTaken]; omega⟩
        · exact Or.inr ⟨hok, by simp only [bytesTaken]; omega, hshort⟩
    · cases h
      exact Or.inl ⟨rfl, by omega, by omega⟩

end SocketState

section Run

variable {c c' : Channel} {calls : List ChannelCall} {a : Attempt}

/-- A write on an open channel. -/
theorem next_write (hopen : (c.socket.closed || !c.socket.hasFd) = false)
    (h : c.next (.write a) = some c') :
    c' = ⟨{ c.socket with wire := c.socket.wire ++ a.out },
      c.written ++ [(a.message, decide a.GoesThrough)]⟩ := by
  simp only [Channel.next, SocketState.write, hopen, Bool.false_eq_true, if_false,
    Option.map_map, Option.map_eq_some_iff] at h
  obtain ⟨⟨ok, k⟩, hsend, rfl⟩ := h
  rcases SocketState.sendAll_eq_some (Nat.zero_le _) hsend with
    ⟨rfl, rfl, hthrough⟩ | ⟨rfl, rfl, hshort⟩
  · rw [Nat.zero_add] at hthrough
    have hgoes : a.GoesThrough := hthrough
    simp [Attempt.out, hgoes, List.take_of_length_le hthrough]
  · rw [Nat.zero_add] at hshort
    have hgoes : ¬ a.GoesThrough := Nat.not_le.mpr hshort
    simp [Attempt.out, hgoes]

/-- A closed channel takes nothing more. -/
theorem run_closed (h : runActions Channel.next c calls = some c')
    (hclosed : c.socket.closed = true) :
    c'.socket.wire = c.socket.wire ∧
      ∃ refused, c'.written = c.written ++ refused ∧ ∀ w ∈ refused, w.2 = false := by
  induction calls generalizing c with
  | nil =>
    cases h
    exact ⟨rfl, [], (List.append_nil _).symm, List.forall_mem_nil _⟩
  | cons call calls ih =>
    simp only [runActions, Option.bind_eq_some_iff] at h
    obtain ⟨d, hd, h⟩ := h
    cases call with
    | write a =>
      simp only [Channel.next, SocketState.write, hclosed, Bool.true_or, if_true, Option.map_some,
        Option.some.injEq] at hd
      subst hd
      obtain ⟨hwire, refused, hwritten, hrefused⟩ := ih h hclosed
      refine ⟨hwire, (a.message, false) :: refused, ?_, List.forall_mem_cons.mpr ⟨rfl, hrefused⟩⟩
      rw [hwritten, List.append_assoc, List.singleton_append]
    | shutdownFd =>
      cases hd
      obtain ⟨hwire, hrefused⟩ := ih h rfl
      exact ⟨hwire, hrefused⟩
    | pumpEnds =>
      cases hd
      obtain ⟨hwire, hrefused⟩ := ih h rfl
      exact ⟨hwire, hrefused⟩

/-- **What a run of calls puts on the wire, and what each write returns.** -/
theorem run_eq (h : runActions Channel.next c calls = some c')
    (hopen : (c.socket.closed || !c.socket.hasFd) = false) :
    c'.socket.wire = c.socket.wire ++ (whileOpen calls).flatMap Attempt.out ∧
      ∃ refused, c'.written = c.written ++
          (whileOpen calls).map (fun a => (a.message, decide a.GoesThrough)) ++ refused ∧
        ∀ w ∈ refused, w.2 = false := by
  induction calls generalizing c with
  | nil =>
    cases h
    exact ⟨(List.append_nil _).symm, [], by simp [whileOpen], List.forall_mem_nil _⟩
  | cons call calls ih =>
    simp only [runActions, Option.bind_eq_some_iff] at h
    obtain ⟨d, hd, h⟩ := h
    cases call with
    | write a =>
      obtain rfl := next_write hopen hd
      obtain ⟨hwire, refused, hwritten, hrefused⟩ := ih h hopen
      exact ⟨hwire.trans (by simp [whileOpen]), refused,
        hwritten.trans (by simp [whileOpen]), hrefused⟩
    | shutdownFd =>
      cases hd
      obtain ⟨hwire, refused, hwritten, hrefused⟩ := run_closed h rfl
      exact ⟨hwire.trans (List.append_nil _).symm, refused,
        hwritten.trans (by simp [whileOpen]), hrefused⟩
    | pumpEnds =>
      cases hd
      obtain ⟨hwire, refused, hwritten, hrefused⟩ := run_closed h rfl
      exact ⟨hwire.trans (List.append_nil _).symm, refused,
        hwritten.trans (by simp [whileOpen]), hrefused⟩

/-- The messages that are accepted are those that went through before the channel was closed. -/
theorem accepted_of_run (h : runActions Channel.next {} calls = some c) :
    c.accepted = ((whileOpen calls).filter fun a => a.GoesThrough).map Attempt.message := by
  obtain ⟨-, refused, hwritten, hrefused⟩ := run_eq h rfl
  have hnone : refused.filter Prod.snd = [] := by
    rw [List.filter_eq_nil_iff]
    intro w hw
    rw [hrefused w hw]
    exact Bool.false_ne_true
  rw [Channel.accepted, hwritten, List.filter_append, hnone, List.append_nil, List.nil_append,
    List.filter_map, List.map_map]
  rfl

/-- When every write returned true, every frame went out whole. -/
theorem wire_of_all_accepted (h : runActions Channel.next {} calls = some c)
    (hall : ∀ w ∈ c.written, w.2 = true) :
    c.socket.wire = joinLines newline (c.written.map Prod.fst) := by
  obtain ⟨hwire, refused, hwritten, hrefused⟩ := run_eq h rfl
  rw [hwritten] at hall
  obtain ⟨hthrough, hnone⟩ := List.forall_mem_append.mp hall
  have hnil : refused = [] := by
    refine List.eq_nil_iff_forall_not_mem.mpr fun w hw => ?_
    have htrue := hnone w hw
    rw [hrefused w hw] at htrue
    cases htrue
  rw [hwire, hwritten, hnil]
  simp only [List.nil_append, List.append_nil, List.map_map, joinLines, List.flatMap_map]
  refine List.flatMap_congr fun a ha => ?_
  have hgoes := hthrough (a.message, decide a.GoesThrough)
    (List.mem_append_right _ (List.mem_map.mpr ⟨a, ha, rfl⟩))
  exact List.take_of_length_le (of_decide_eq_true hgoes)

end Run

/-! ## 5. Nothing is lost -/

/-- **The channel is lossless, however it is cut.**  When every write returned true, whatever the
parts in which the frames went out, the pump that receives the stream hands over the messages, each
once and in order; and what it hands over depends on the stream alone, whatever the pieces in which
it comes. -/
theorem channel_lossless :
    (∀ (calls : List ChannelCall) (c : Channel) (answers : List SocketState.RecvAnswer),
      runActions Channel.next {} calls = some c → (∀ w ∈ c.written, w.2 = true) →
      (∀ w ∈ c.written, w.1 ≠ [] ∧ newline ∉ w.1) →
      SocketState.received answers = c.socket.wire →
      SocketState.pump true [] answers = c.written.map Prod.fst) ∧
    ∀ answers answers' : List SocketState.RecvAnswer,
      SocketState.received answers = SocketState.received answers' →
      SocketState.pump true [] answers = SocketState.pump true [] answers' := by
  refine ⟨?_, ?_⟩
  · intro calls c answers hrun hall hmessages hreceived
    have hone : ∀ m ∈ c.written.map Prod.fst, newline ∉ m :=
      List.forall_mem_map.mpr fun w hw => (hmessages w hw).2
    have hkept :
        (c.written.map Prod.fst).filter (fun m => !m.isEmpty) = c.written.map Prod.fst := by
      rw [List.filter_eq_self]
      intro m hm
      obtain ⟨w, hw, rfl⟩ := List.mem_map.mp hm
      simpa using (hmessages w hw).1
    have hlines := (lines_joinLines hone []).1
    rw [List.append_nil] at hlines
    rw [SocketState.pump_eq List.not_mem_nil, List.nil_append, hreceived,
      wire_of_all_accepted hrun hall, hlines]
    simpa [lines] using hkept
  · intro answers answers' h
    rw [SocketState.pump_eq List.not_mem_nil, SocketState.pump_eq List.not_mem_nil, h]

/-- Two messages, in parts and with a signal between them. -/
def twoSent : List ChannelCall :=
  [.write ⟨[123, 125], [.sent 1, .interrupted, .sent 2]⟩, .write ⟨[91, 49, 93], [.sent 4]⟩]

/-- They arrive in other pieces. -/
theorem two_delivered :
    SocketState.pump true [] [.data [123], .interrupted, .data [125, 10, 91], .data [49, 93, 10],
      .ended] = [[123, 125], [91, 49, 93]] :=
  channel_lossless.1 twoSent
    ⟨{ wire := [123, 125, 10, 91, 49, 93, 10] }, [([123, 125], true), ([91, 49, 93], true)]⟩
    _ rfl (by decide) (by decide) rfl

/-! ## 6. Writes that give up -/

/-- **No frame is spliced**: what the other end is handed is the messages that were accepted, and of
a write that gave up nothing. -/
def Unspliced (c : Channel) : Prop :=
  ∀ answers, SocketState.received answers = c.socket.wire →
    SocketState.pump true [] answers = c.accepted.filter fun m => !m.isEmpty

section Splice

variable {u : List UInt8} {a : Attempt} {attempts : List Attempt}

/-- The lines of what was left over and what a number of writes send. -/
def linesAfter (u : List UInt8) (attempts : List Attempt) : List (List UInt8) :=
  lines newline (u ++ attempts.flatMap Attempt.out)

/-- The messages that went through. -/
def throughs (attempts : List Attempt) : List (List UInt8) :=
  (attempts.filter fun a => a.GoesThrough).map Attempt.message

/-- A frame that goes through ends the line. -/
theorem linesAfter_through (hu : newline ∉ u) (hm : newline ∉ a.message) (h : a.GoesThrough) :
    linesAfter u (a :: attempts) = (u ++ a.message) :: linesAfter [] attempts := by
  have hout : a.out = a.message ++ [newline] := List.take_of_length_le h
  have hline : newline ∉ u ++ a.message := by simp [hu, hm]
  have hsplit : u ++ (a :: attempts).flatMap Attempt.out =
      (u ++ a.message) ++ newline :: ([] ++ attempts.flatMap Attempt.out) := by
    simp [hout]
  rw [linesAfter, hsplit, (lines_cons hline).1, linesAfter]

/-- One that does not is left over. -/
theorem linesAfter_stopped (h : ¬ a.GoesThrough) :
    linesAfter u (a :: attempts) = linesAfter (u ++ a.out) attempts ∧
      a.out = a.message.take (bytesTaken a.answers) ∧
      a.out.length = bytesTaken a.answers := by
  have hlt : bytesTaken a.answers < (SocketState.frame a.message).length := Nat.not_le.mp h
  have hle : bytesTaken a.answers ≤ a.message.length := by
    simp only [SocketState.frame, List.length_append, List.length_singleton] at hlt
    omega
  refine ⟨by simp [linesAfter], ?_, ?_⟩
  · rw [Attempt.out, SocketState.frame, List.take_append_of_le_length hle]
  · rw [Attempt.out, List.length_take]
    omega

/-- What is left over ends up in a line once any frame goes through. -/
theorem length_linesAfter (hu : newline ∉ u) (hm : ∀ a ∈ attempts, newline ∉ a.message) :
    (throughs attempts).flatten.length ≤ (linesAfter u attempts).flatten.length ∧
      ((∃ a ∈ attempts, a.GoesThrough) →
        (throughs attempts).flatten.length + u.length ≤
          (linesAfter u attempts).flatten.length) := by
  induction attempts generalizing u with
  | nil => simp [throughs]
  | cons a attempts ih =>
    obtain ⟨ha, hrest⟩ := List.forall_mem_cons.mp hm
    by_cases hgoes : a.GoesThrough
    · obtain ⟨hle, -⟩ := ih List.not_mem_nil hrest
      have hthroughs : throughs (a :: attempts) = a.message :: throughs attempts := by
        simp [throughs, hgoes]
      rw [linesAfter_through hu ha hgoes, hthroughs]
      simp only [List.flatten_cons, List.length_append]
      exact ⟨by omega, fun _ => by omega⟩
    · obtain ⟨hlines, hout, -⟩ := @linesAfter_stopped u a attempts hgoes
      have hleft : newline ∉ u ++ a.out := by
        rw [hout, List.mem_append, not_or]
        exact ⟨hu, fun hmem => ha (List.mem_of_mem_take hmem)⟩
      obtain ⟨hle, hle'⟩ := ih hleft hrest
      have hthroughs : throughs (a :: attempts) = throughs attempts := by
        simp [throughs, hgoes]
      rw [hlines, hthroughs]
      refine ⟨hle, fun hany => ?_⟩
      rw [List.exists_mem_cons_iff] at hany
      have hlen := hle' (hany.resolve_left hgoes)
      rw [List.length_append] at hlen
      omega

/-- **When the lines are the messages that went through**: when nothing goes through behind
something left over, be it from before or from a frame that stops midway. -/
theorem linesAfter_eq_iff (hu : newline ∉ u) (hm : ∀ a ∈ attempts, newline ∉ a.message) :
    (linesAfter u attempts).filter (fun l => !l.isEmpty) =
        (throughs attempts).filter (fun m => !m.isEmpty) ↔
      (u ≠ [] → ∀ a ∈ attempts, ¬ a.GoesThrough) ∧
        attempts.Pairwise fun a b => a.StopsMidway → ¬ b.GoesThrough := by
  induction attempts generalizing u with
  | nil => simp [throughs, linesAfter, (lines_of_notMem hu).1]
  | cons a attempts ih =>
    obtain ⟨ha, hrest⟩ := List.forall_mem_cons.mp hm
    rw [List.pairwise_cons, List.forall_mem_cons]
    by_cases hgoes : a.GoesThrough
    · have hthroughs : throughs (a :: attempts) = a.message :: throughs attempts := by
        simp [throughs, hgoes]
      have hnot : ¬ a.StopsMidway := fun h => h.2 hgoes
      have ih := ih List.not_mem_nil hrest
      by_cases hnil : u = []
      · subst hnil
        rw [linesAfter_through hu ha hgoes, hthroughs, List.nil_append, List.filter_cons,
          List.filter_cons]
        simp only [ne_eq, not_true_eq_false, false_implies, true_and, hnot] at ih ⊢
        rw [← ih]
        split
        · exact ⟨fun h => ⟨fun _ _ => trivial, (List.cons.inj h).2⟩,
            fun h => congrArg _ h.2⟩
        · exact ⟨fun h => ⟨fun _ _ => trivial, h⟩, fun h => h.2⟩
      · -- what was left over is in the line
        refine iff_of_false ?_ fun h => (h.1 hnil).1 hgoes
        intro heq
        have hlen := (length_linesAfter hu hm).2 ⟨a, List.mem_cons_self, hgoes⟩
        have hsame := congrArg (fun ls => ls.flatten.length) heq
        simp only [List.flatten_filter_not_isEmpty] at hsame
        have hpos := List.length_pos_of_ne_nil hnil
        omega
    · obtain ⟨hlines, hout, hlength⟩ := @linesAfter_stopped u a attempts hgoes
      have hleft : newline ∉ u ++ a.out := by
        rw [hout, List.mem_append, not_or]
        exact ⟨hu, fun hmem => ha (List.mem_of_mem_take hmem)⟩
      have hthroughs : throughs (a :: attempts) = throughs attempts := by
        simp [throughs, hgoes]
      have hmidway : a.out ≠ [] ↔ a.StopsMidway := by
        rw [← List.length_pos_iff, hlength]
        exact ⟨fun h => ⟨h, hgoes⟩, fun h => h.1⟩
      rw [hlines, hthroughs, ih hleft hrest, ne_eq, List.append_eq_nil_iff, not_and_or,
        ← ne_eq, ← ne_eq, hmidway]
      constructor
      · rintro ⟨hbehind, hpairs⟩
        exact ⟨fun h => ⟨hgoes, hbehind (Or.inl h)⟩, fun b hb h => hbehind (Or.inr h) b hb, hpairs⟩
      · rintro ⟨hbefore, hmid, hpairs⟩
        refine ⟨?_, hpairs⟩
        rintro (h | h) b hb
        · exact (hbefore h).2 b hb
        · exact hmid b hb h

end Splice

/-- **When no frame is spliced**: exactly when, before the channel is closed, no write goes through
after one that an error stopped with some of its frame out. -/
theorem unspliced_iff {calls : List ChannelCall} {c : Channel}
    (hrun : runActions Channel.next {} calls = some c)
    (hmessages : ∀ a ∈ whileOpen calls, newline ∉ a.message) :
    Unspliced c ↔
      (whileOpen calls).Pairwise fun a b => a.StopsMidway → ¬ b.GoesThrough := by
  have hiff := (linesAfter_eq_iff (u := []) List.not_mem_nil hmessages).trans
    (and_iff_right fun h => absurd rfl h)
  have hwire : c.socket.wire = [] ++ (whileOpen calls).flatMap Attempt.out := (run_eq hrun rfl).1
  have hpump : ∀ answers, SocketState.received answers = c.socket.wire →
      SocketState.pump true [] answers =
        (linesAfter [] (whileOpen calls)).filter fun l => !l.isEmpty := by
    intro answers h
    rw [SocketState.pump_eq List.not_mem_nil, h, hwire, List.nil_append, linesAfter]
  rw [← hiff, Unspliced, accepted_of_run hrun]
  constructor
  · intro h
    have hall := h [.data c.socket.wire] (List.append_nil _)
    rw [hpump _ (List.append_nil _)] at hall
    exact hall
  · intro h answers hreceived
    rw [hpump answers hreceived]
    exact h

/-- One byte of `ab` goes out before the error; then `c` goes through. -/
def spliced : List ChannelCall :=
  [.write ⟨[97, 98], [.sent 1, .failed]⟩, .write ⟨[99], [.sent 2]⟩]

def splicedChannel : Channel :=
  ⟨{ wire := [97, 99, 10] }, [([97, 98], false), ([99], true)]⟩

/-- **A fragment in front of a message**: the other end is handed `ac`. -/
theorem fragment_delivered :
    ¬ ∀ (calls : List ChannelCall) (c : Channel), runActions Channel.next {} calls = some c →
      (∀ a ∈ whileOpen calls, newline ∉ a.message) → Unspliced c := by
  intro h
  have hwhole := h spliced splicedChannel rfl (by decide) [.data [97, 99, 10]] rfl
  rw [SocketState.pump_eq List.not_mem_nil] at hwhole
  exact absurd hwhole (by decide)

/-- The first of two writes is stopped before anything is out. -/
theorem nothing_spliced :
    Unspliced ⟨{ wire := [99, 10] }, [([97, 98], false), ([99], true)]⟩ :=
  (@unspliced_iff [.write ⟨[97, 98], [.failed]⟩, .write ⟨[99], [.sent 2]⟩] _ rfl (by decide)).mpr
    (by decide)

end Logosctl
