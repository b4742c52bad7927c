/-
# The reader of the log pipe

Everything the daemon and its modules print comes through a pipe, in pieces, and goes to the logger
a line at a time.  What has no newline yet is kept for the next piece, up to 64 KiB: past that it is
logged as it is, since a producer may never end its line.

Every byte but the newlines is logged, in order, and as lines when the lines are not too long
(`readerLoop_logs`); what is kept stays bounded.
-/
import Logosctl.Library.Lines

namespace Logosctl.LogSink

open Library

/-! ## 1. The loop -/

/-- What `read` answers; on EOF and on an error the loop is left. -/
inductive ReadAnswer
  | data (chunk : List UInt8)
  | interrupted
  | ended
  deriving DecidableEq

/-- The loop over `pending` from the index `i` on, the line having begun at `start`: the lines it
finds, and where the last of them ends. -/
def findLines (pending : List UInt8) : (ahead : List UInt8) → (i start : Nat) →
    List (List UInt8) × Nat
  | [], _, start => ([], start)
  | c :: ahead, i, start =>
    if c ≠ newline then findLines pending ahead (i + 1) start
    else
      let (found, last) := findLines pending ahead (i + 1) (i + 1)
      ((pending.drop start).take (i - start) :: found, last)

/-- Past this much without a newline, what is pending is logged. -/
def flushAbove : Nat := 64 * 1024

/-- The size of the buffer that is read into. -/
def readSize : Nat := 4096

/-- The reader: what is pending, what was handed to the logger, whether the loop is left, and the
most that was ever pending. -/
structure Reader where
  pending : List UInt8 := []
  logged : List (List UInt8) := []
  ended : Bool := false
  peak : Nat := 0

/-- One turn of the loop, or what follows it. -/
def Reader.turn (r : Reader) (answer : ReadAnswer) : Reader :=
  if r.ended then r
  else
    match answer with
    | .interrupted => r
    | .ended =>
      { r with
        pending := []
        logged := if r.pending.isEmpty then r.logged else r.logged ++ [r.pending]
        ended := true }
    | .data chunk =>
      let pending := r.pending ++ chunk
      let (found, start) := findLines pending pending 0 0
      let left := pending.drop start
      let r := { r with peak := max r.peak pending.length }
      if left.length > flushAbove then
        { r with pending := [], logged := r.logged ++ found ++ [left] }
      else { r with pending := left, logged := r.logged ++ found }

/-- `LogSink::readerLoop`. -/
def readerLoop (answers : List ReadAnswer) : Reader := answers.foldl Reader.turn {}

/-- What is read until the loop is left. -/
def stream : List ReadAnswer → List UInt8
  | [] | .ended :: _ => []
  | .interrupted :: answers => stream answers
  | .data chunk :: answers => chunk ++ stream answers

/-- A stream split at its newlines, with the last line when it is not ended. -/
def logLines (bytes : List UInt8) : List (List UInt8) :=
  lines newline bytes ++
    if (unfinished newline bytes).isEmpty then [] else [unfinished newline bytes]

/-! ## 2. One turn -/

/-- **The loop over `pending` finds its lines.** -/
theorem findLines_eq {pending ahead : List UInt8} {i start : Nat} (hahead : pending.drop i = ahead)
    (hstart : start ≤ i) (hline : newline ∉ (pending.drop start).take (i - start)) :
    (findLines pending ahead i start).1 = lines newline (pending.drop start) ∧
      pending.drop (findLines pending ahead i start).2 =
        unfinished newline (pending.drop start) := by
  induction ahead generalizing i start with
  | nil =>
    have hle : pending.length ≤ i := List.drop_eq_nil_iff.mp hahead
    have hall : newline ∉ pending.drop start := by
      rwa [List.take_of_length_le (by rw [List.length_drop]; omega)] at hline
    obtain ⟨hlines, hleft⟩ := lines_of_notMem hall
    exact ⟨hlines.symm, hleft.symm⟩
  | cons c ahead ih =>
    have hnext : pending.drop (i + 1) = ahead := by
      rw [← List.drop_drop, hahead, List.drop_one, List.tail_cons]
    have hsplit : pending.drop start = (pending.drop start).take (i - start) ++ c :: ahead := by
      have hrest : (pending.drop start).drop (i - start) = c :: ahead := by
        rw [List.drop_drop, Nat.add_sub_cancel' hstart, hahead]
      rw [← hrest, List.take_append_drop]
    unfold findLines
    by_cases hc : c = newline
    · subst hc
      rw [if_neg (not_not.mpr rfl)]
      obtain ⟨hfound, hlast⟩ := @ih (i + 1) (i + 1) hnext (Nat.le_refl _) (by simp)
      rw [hnext] at hfound hlast
      obtain ⟨hlines, hleft⟩ := lines_cons (s := ahead) hline
      rw [← hsplit] at hlines hleft
      exact ⟨by rw [hlines, ← hfound], by rw [hleft, ← hlast]⟩
    · rw [if_pos hc]
      refine ih hnext (Nat.le_succ_of_le hstart) ?_
      have htake : (pending.drop start).take (i + 1 - start) =
          (pending.drop start).take (i - start) ++ [c] := by
        have hlen : ((pending.drop start).take (i - start)).length = i - start := by
          have hlt : i < pending.length := by
            by_contra hge
            rw [List.drop_eq_nil_of_le (Nat.not_lt.mp hge)] at hahead
            cases hahead
          rw [List.length_take, List.length_drop]
          omega
        conv_lhs => rw [hsplit]
        rw [List.take_append, hlen, List.take_of_length_le (by omega)]
        have hone : i + 1 - start - (i - start) = 1 := by omega
        rw [hone, List.take_succ_cons, List.take_zero]
      rw [htake, List.mem_append, not_or]
      exact ⟨hline, by simpa using Ne.symm hc⟩

section Turn

variable {r : Reader} {chunk seen seen' later : List UInt8} {answers : List ReadAnswer}

/-- What a turn makes of a piece: the lines are logged, and what is left over is kept or, when it is
too much, logged as well. -/
theorem turn_data (hended : r.ended = false) : r.turn (.data chunk) =
    { r with
      peak := max r.peak (r.pending ++ chunk).length
      pending :=
        if (unfinished newline (r.pending ++ chunk)).length > flushAbove then []
        else unfinished newline (r.pending ++ chunk)
      logged := r.logged ++ lines newline (r.pending ++ chunk) ++
        if (unfinished newline (r.pending ++ chunk)).length > flushAbove then
          [unfinished newline (r.pending ++ chunk)]
        else [] } := by
  have hfind : (findLines (r.pending ++ chunk) (r.pending ++ chunk) 0 0).1 =
        lines newline (r.pending ++ chunk) ∧
      (r.pending ++ chunk).drop (findLines (r.pending ++ chunk) (r.pending ++ chunk) 0 0).2 =
        unfinished newline (r.pending ++ chunk) :=
    findLines_eq List.drop_zero (Nat.le_refl 0) List.not_mem_nil
  simp only [Reader.turn, hended, Bool.false_eq_true, if_false, hfind]
  split <;> simp

/-- **What every turn keeps**: what was logged and what is pending are what was read, without the
newlines, and no more than so much is pending. -/
structure Keeps (r : Reader) (seen : List UInt8) : Prop where
  bytes : r.logged.flatten ++ r.pending = seen.filter (· != newline)
  oneLine : newline ∉ r.pending
  bounded : r.pending.length ≤ flushAbove

theorem Keeps.turn_data (h : Keeps r seen) (hended : r.ended = false) :
    Keeps (r.turn (.data chunk)) (seen ++ chunk) := by
  obtain ⟨hbytes, hone, -⟩ := h
  have hpending : r.pending.filter (· != newline) = r.pending := by
    rw [List.filter_eq_self]
    intro c hc
    simpa using fun heq : c = newline => hone (heq ▸ hc)
  have hall : (lines newline (r.pending ++ chunk)).flatten ++
      unfinished newline (r.pending ++ chunk) = r.pending ++ chunk.filter (· != newline) := by
    rw [flatten_lines, List.filter_append, hpending]
  rw [LogSink.turn_data hended]
  by_cases hlong : (unfinished newline (r.pending ++ chunk)).length > flushAbove
  · refine ⟨?_, by simp [hlong], by simp [hlong]⟩
    simp only [if_pos hlong, List.flatten_append, List.flatten_singleton, List.append_assoc, hall,
      List.append_nil, List.filter_append]
    rw [← List.append_assoc, hbytes]
  · refine ⟨?_, ?_, ?_⟩
    · simp only [if_neg hlong, List.flatten_append, List.append_nil, List.append_assoc, hall,
        List.filter_append]
      rw [← List.append_assoc, hbytes]
    · simp only [if_neg hlong]
      exact notMem_unfinished _
    · simp only [if_neg hlong]
      exact Nat.not_lt.mp hlong

/-- Without long lines, what is logged is the lines so far, and what is pending follows them. -/
structure KeepsLines (r : Reader) (seen : List UInt8) : Prop where
  logged : r.logged = lines newline seen
  pending : r.pending = unfinished newline seen

theorem KeepsLines.turn_data (h : KeepsLines r seen) (hended : r.ended = false)
    (hshort : ∀ l ∈ (seen ++ chunk ++ later).splitOn newline, l.length ≤ flushAbove) :
    KeepsLines (r.turn (.data chunk)) (seen ++ chunk) := by
  obtain ⟨hlogged, hpending⟩ := h
  obtain ⟨hlines, hleft⟩ := @lines_append _ _ _ newline seen chunk
  have hkept : ¬ (unfinished newline (r.pending ++ chunk)).length > flushAbove := by
    obtain ⟨l, hl, hprefix⟩ := @exists_splitOn_unfinished _ _ _ newline (seen ++ chunk) later
    rw [hleft, ← hpending] at hprefix
    exact Nat.not_lt.mpr (Nat.le_trans hprefix.length_le (hshort l hl))
  rw [LogSink.turn_data hended]
  refine ⟨?_, ?_⟩
  · simp only [if_neg hkept, List.append_nil]
    rw [hlines, hlogged, hpending]
  · simp only [if_neg hkept]
    rw [hleft, hpending]

/-! ## 3. The whole loop -/

/-- A loop that was left does nothing more. -/
theorem foldl_turn_ended (hended : r.ended = true) : answers.foldl Reader.turn r = r := by
  induction answers with
  | nil => rfl
  | cons answer answers ih =>
    have hone : r.turn answer = r := if_pos hended
    rw [List.foldl_cons, hone, ih]

/-- The run of an invariant: kept by every piece, it holds of the reader just before the loop is
left, of all that was read. -/
theorem exists_before_end {I : Reader → List UInt8 → Prop} (h : I r seen)
    (hended : r.ended = false) (hends : .ended ∈ answers)
    (hturn : ∀ r seen chunk later, seen ++ chunk ++ later = seen' → r.ended = false →
      I r seen → I (r.turn (.data chunk)) (seen ++ chunk))
    (hall : seen ++ stream answers = seen') :
    ∃ last : Reader, last.ended = false ∧ I last seen' ∧
      answers.foldl Reader.turn r = last.turn .ended := by
  induction answers generalizing r seen with
  | nil => cases hends
  | cons answer answers ih =>
    rw [List.foldl_cons]
    cases answer with
    | ended =>
      have hafter : (r.turn .ended).ended = true := by simp [Reader.turn, hended]
      have hseen : seen = seen' := by simpa [stream] using hall
      exact ⟨r, hended, hseen ▸ h, foldl_turn_ended hafter⟩
    | interrupted =>
      have hone : r.turn .interrupted = r := by simp [Reader.turn]
      rw [hone]
      exact ih h hended (by simpa using hends) hall
    | data chunk =>
      have hgoes : (r.turn (.data chunk)).ended = false := by
        rw [turn_data hended]
        exact hended
      have hrest : seen ++ chunk ++ stream answers = seen' := by
        rw [List.append_assoc]
        exact hall
      exact ih (hturn r seen chunk _ hrest hended h) hgoes (by simpa using hends) hrest

/-- What is pending is bounded between the turns, and has never been more than one piece over. -/
structure Bounded (r : Reader) : Prop where
  pending : r.pending.length ≤ flushAbove
  peak : r.peak ≤ flushAbove + readSize

theorem Bounded.turn (h : Bounded r) {answer : ReadAnswer}
    (hsize : ∀ chunk, answer = .data chunk → chunk.length ≤ readSize) :
    Bounded (r.turn answer) := by
  obtain ⟨hpending, hpeak⟩ := h
  cases hended : r.ended with
  | true =>
    have hsame : r.turn answer = r := if_pos hended
    exact hsame.symm ▸ ⟨hpending, hpeak⟩
  | false =>
    cases answer with
    | interrupted =>
      have hsame : r.turn .interrupted = r := by simp [Reader.turn]
      exact hsame.symm ▸ ⟨hpending, hpeak⟩
    | ended =>
      have hlast : r.turn .ended = { r with
          pending := []
          logged := if r.pending.isEmpty then r.logged else r.logged ++ [r.pending]
          ended := true } := by
        simp only [Reader.turn, hended, Bool.false_eq_true, if_false]
      exact hlast.symm ▸ ⟨Nat.zero_le _, hpeak⟩
    | data chunk =>
      have hchunk := hsize chunk rfl
      rw [turn_data hended]
      refine ⟨?_, ?_⟩
      · by_cases hlong : (unfinished newline (r.pending ++ chunk)).length > flushAbove
        · simp only [if_pos hlong]
          exact Nat.zero_le _
        · simp only [if_neg hlong]
          exact Nat.not_lt.mp hlong
      · simp only [List.length_append]
        omega

theorem bounded_foldl (h : Bounded r)
    (hsize : ∀ chunk, .data chunk ∈ answers → chunk.length ≤ readSize) :
    Bounded (answers.foldl Reader.turn r) := by
  induction answers generalizing r with
  | nil => exact h
  | cons answer answers ih =>
    refine ih (h.turn fun chunk heq => hsize chunk (heq ▸ List.mem_cons_self)) ?_
    exact fun chunk hmem => hsize chunk (List.mem_cons_of_mem _ hmem)

end Turn

/-- **What the log gets.**  Once the pipe is closed: when no line is longer than 64 KiB, what was
logged is the stream split at its newlines, however it was read; and always it is the stream without
the newlines.  Until then and always, no more than one piece over 64 KiB is pending. -/
theorem readerLoop_logs (answers : List ReadAnswer) :
    (.ended ∈ answers →
      ((∀ l ∈ (stream answers).splitOn newline, l.length ≤ flushAbove) →
        (readerLoop answers).logged = logLines (stream answers)) ∧
      (readerLoop answers).logged.flatten = (stream answers).filter (· != newline)) ∧
    ((∀ chunk, .data chunk ∈ answers → chunk.length ≤ readSize) →
      (readerLoop answers).peak ≤ flushAbove + readSize) := by
  refine ⟨fun hends => ⟨?_, ?_⟩, ?_⟩
  · intro hshort
    obtain ⟨last, hended, ⟨hlogged, hpending⟩, hlast⟩ :=
      @exists_before_end {} [] (stream answers) answers KeepsLines ⟨rfl, rfl⟩ rfl hends
        (fun r seen chunk later hall hended h => h.turn_data hended (hall.symm ▸ hshort)) rfl
    rw [readerLoop, hlast, logLines]
    simp only [Reader.turn, hended, Bool.false_eq_true, if_false, hlogged, hpending]
    split <;> simp
  · obtain ⟨last, hended, ⟨hbytes, -, -⟩, hlast⟩ :=
      @exists_before_end {} [] (stream answers) answers Keeps
        ⟨rfl, List.not_mem_nil, Nat.zero_le _⟩ rfl hends
        (fun r seen chunk later _ hended h => h.turn_data hended) rfl
    rw [readerLoop, hlast, ← hbytes]
    simp only [Reader.turn, hended, Bool.false_eq_true, if_false]
    split
    · next hempty => simp [List.isEmpty_iff.mp hempty]
    · simp
  · exact fun hsize => (bounded_foldl ⟨Nat.zero_le _, Nat.zero_le _⟩ hsize).peak

/-- Two lines and a last one without a newline, in three pieces. -/
def threePieces : List ReadAnswer :=
  [.data [97, 10, 98], .interrupted, .data [99], .data [10, 100], .ended]

theorem three_lines_logged : (readerLoop threePieces).logged = [[97], [98, 99], [100]] ∧
    (readerLoop threePieces).peak ≤ flushAbove + readSize := by
  obtain ⟨hends, hsize⟩ := readerLoop_logs threePieces
  exact ⟨(hends (by decide)).1 (by decide), hsize (by simp [threePieces, readSize])⟩

end Logosctl.LogSink
