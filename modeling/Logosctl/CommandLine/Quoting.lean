/-
# Quoting for the detached child on Windows

`CreateProcess` takes one string, so the child's arguments survive the trip only if the child
splits the line back into the same arguments.  `quoteArg` leaves an argument alone when nothing
in it would be read otherwise, and else puts it between quotes, doubling backslashes where a
quote follows them.  The reader is the library's; what this module proves is that it reads back
what `spawnDetached` wrote, argument by argument, whatever follows.
-/
import Logosctl.Library.ArgumentRules

namespace Logosctl.CommandLine

open Library

/-! ## 1. The line -/

/-- The characters that `quoteArg` looks for. -/
def needsQuotes (c : Char) : Bool :=
  c == ' ' || c == '\t' || c == '\n' || c == Char.ofNat 11 || c == '"'

/-- The loop of `quoteArg` on what is left of the argument, with `n` backslashes counted since
the last other character. -/
def quoteBody (n : Nat) : List Char → List Char
  | [] => List.replicate (n * 2) '\\'
  | c :: cs =>
    if c = '\\' then quoteBody (n + 1) cs
    else if c = '"' then List.replicate (n * 2 + 1) '\\' ++ '"' :: quoteBody 0 cs
    else List.replicate n '\\' ++ c :: quoteBody 0 cs

def quoteArg (a : List Char) : List Char :=
  if a ≠ [] ∧ a.any needsQuotes = false then a
  else '"' :: (quoteBody 0 a ++ ['"'])

/-- The loop of `spawnDetached`: one more argument onto the line. -/
def appendArg (cmdline a : List Char) : List Char :=
  (if cmdline = [] then cmdline else cmdline ++ [' ']) ++ quoteArg a

/-- The line as `spawnDetached` builds it. -/
def cmdline (args : List String) : List Char :=
  (args.map String.toList).foldl appendArg []

/-- The buffer goes over as a C string: `CreateProcess` reads it to the first NUL. -/
def received (line : List Char) : List Char :=
  (line ++ [Char.ofNat 0]).takeWhile (· ≠ Char.ofNat 0)

/-! ## 2. One argument -/

/-- What was written of an argument, up to its closing quote, reads as the argument. -/
theorem splitArgs_quoteBody (rest : List Char) : ∀ (cs : List Char) (n : Nat) (acc : List Char),
    splitArgs true 0 (some acc) (quoteBody n cs ++ '"' :: rest)
      = splitArgs false 0 (some (acc ++ List.replicate n '\\' ++ cs)) rest
  | [], n, acc => by
    rw [quoteBody, Nat.mul_comm, splitArgs_even, Bool.not_true, List.append_nil]
  | c :: cs, n, acc => by
    by_cases hslash : c = '\\'
    · subst hslash
      rw [quoteBody, if_pos rfl, splitArgs_quoteBody rest cs (n + 1) acc]
      simp [List.replicate_succ']
    · by_cases hquote : c = '"'
      · subst hquote
        rw [quoteBody, if_neg hslash, if_pos rfl, List.append_assoc, List.cons_append,
          Nat.mul_comm, splitArgs_odd, splitArgs_quoteBody rest cs 0]
        simp
      · rw [quoteBody, if_neg hslash, if_neg hquote, List.append_assoc, List.cons_append,
          splitArgs_literal _ _ _ hslash hquote, splitArgs_quoteBody rest cs 0]
        simp

theorem quoteArg_ne_nil (a : List Char) : quoteArg a ≠ [] := by
  unfold quoteArg
  split
  · rename_i h; exact h.1
  · exact List.cons_ne_nil _ _

/-- **One quoted argument reads back**, and what follows it is left to be read. -/
theorem splitLine_quoteArg {rest : List Char} {args : List (List Char)} (hrest : Yields rest args)
    (a : List Char) : splitLine (quoteArg a ++ rest) = a :: args := by
  unfold quoteArg
  split
  · rename_i h
    obtain ⟨hne, hplain⟩ := h
    have hbare : ∀ c ∈ a, isBlank c = false ∧ c ≠ '"' := by
      intro c hc
      have hcq : needsQuotes c = false := by simpa using List.any_eq_false.mp hplain c hc
      simp only [needsQuotes, Bool.or_eq_false_iff, beq_eq_false_iff_ne] at hcq
      simp [isBlank, hcq]
    rw [splitLine, splitArgs_bare hrest hbare, if_neg hne]
    simp
  · have hopen : splitLine ('"' :: (quoteBody 0 a ++ ['"']) ++ rest)
        = splitArgs true 0 (some []) (quoteBody 0 a ++ '"' :: rest) := by
      simp [splitLine, splitArgs]
    rw [hopen, splitArgs_quoteBody, hrest]
    simp

/-! ## 3. The whole line -/

/-- From the second argument on, each is a blank and its quoted text. -/
theorem foldl_appendArg : ∀ (args : List (List Char)) {line : List Char}, line ≠ [] →
    args.foldl appendArg line = line ++ args.flatMap (fun a => ' ' :: quoteArg a)
  | [], _, _ => by simp
  | a :: args, line, h => by
    have hnext : appendArg line a = line ++ ' ' :: quoteArg a := by simp [appendArg, h]
    rw [List.foldl_cons, foldl_appendArg args (by simp [hnext]), hnext]
    simp

theorem foldl_appendArg_cons (a : List Char) (args : List (List Char)) :
    (a :: args).foldl appendArg [] = quoteArg a ++ args.flatMap (fun a => ' ' :: quoteArg a) := by
  have hfirst : appendArg [] a = quoteArg a := by simp [appendArg]
  rw [List.foldl_cons, hfirst, foldl_appendArg args (quoteArg_ne_nil a)]

/-- The arguments after the first, each behind its blank, end the first and read back. -/
theorem yields_args : ∀ args : List (List Char),
    Yields (args.flatMap (fun a => ' ' :: quoteArg a)) args
  | [] => yields_nil
  | a :: args => by
    have htail := splitLine_quoteArg (yields_args args) a
    have hblank := yields_blank (c := ' ') rfl
      (quoteArg a ++ args.flatMap (fun a => ' ' :: quoteArg a))
    rwa [htail] at hblank

theorem splitLine_foldl (args : List (List Char)) :
    splitLine (args.foldl appendArg []) = args := by
  cases args with
  | nil => rfl
  | cons a args => rw [foldl_appendArg_cons, splitLine_quoteArg (yields_args args)]

/-! ## 4. What is handed over -/

theorem received_of_notMem {line : List Char} (h : Char.ofNat 0 ∉ line) : received line = line := by
  have hall : ∀ c ∈ line, c ≠ Char.ofNat 0 := fun c hc hz => h (hz ▸ hc)
  have htake : (line ++ [Char.ofNat 0]).takeWhile (· ≠ Char.ofNat 0) =
      line ++ [Char.ofNat 0].takeWhile (· ≠ Char.ofNat 0) :=
    List.takeWhile_append_of_pos (by simpa using hall)
  rw [received, htake]
  simp

/-- The only characters that doubling brings in are backslashes. -/
theorem mem_quoteBody {c : Char} (hslash : c ≠ '\\') :
    ∀ {cs : List Char} {n : Nat}, c ∈ quoteBody n cs → c ∈ cs
  | [], n, h => by simp [quoteBody, hslash] at h
  | d :: cs, n, h => by
    rw [quoteBody] at h
    split at h
    · exact List.mem_cons_of_mem _ (mem_quoteBody hslash h)
    · have hcases : c = d ∨ c ∈ quoteBody 0 cs := by
        split at h <;> simp_all
      rcases hcases with rfl | h
      · exact List.mem_cons_self
      · exact List.mem_cons_of_mem _ (mem_quoteBody hslash h)

theorem mem_quoteArg {c : Char} (hslash : c ≠ '\\') (hquote : c ≠ '"') {a : List Char}
    (h : c ∈ quoteArg a) : c ∈ a := by
  unfold quoteArg at h
  split at h
  · exact h
  · simp only [List.mem_cons, List.mem_append, List.not_mem_nil, or_false, hquote, false_or] at h
    exact mem_quoteBody hslash h

theorem nul_notMem_foldl : ∀ {args : List (List Char)}, (∀ a ∈ args, Char.ofNat 0 ∉ a) →
    Char.ofNat 0 ∉ args.foldl appendArg []
  | [], _ => List.not_mem_nil
  | a :: args, h => by
    have hquoted : ∀ b ∈ a :: args, Char.ofNat 0 ∉ quoteArg b := fun b hb hz =>
      h b hb (mem_quoteArg (by decide) (by decide) hz)
    rw [foldl_appendArg_cons]
    simp only [List.mem_append, List.mem_flatMap, List.mem_cons, not_or, not_exists, not_and]
    exact ⟨hquoted a List.mem_cons_self,
      fun b hb => ⟨by decide, hquoted b (List.mem_cons_of_mem _ hb)⟩⟩

theorem received_cmdline {args : List String} (h : ∀ a ∈ args, Char.ofNat 0 ∉ a.toList) :
    received (cmdline args) = cmdline args :=
  received_of_notMem (nul_notMem_foldl (by simpa using h))

/-- After a name without quotes, the reader of the program's name stops where `quoteArg` did. -/
theorem commandLineToArgv_quoteArg {self : List Char} (hself : '"' ∉ self) {rest : List Char}
    {args : List (List Char)} (hrest : Yields rest args)
    (hblank : ∀ c ∈ rest.head?, isBlank c = true) :
    (commandLineToArgv (quoteArg self ++ rest)).2 = args := by
  have hread : splitLine rest = args := by simpa [splitLine] using hrest 0 none
  unfold quoteArg
  split
  · rename_i h
    have hplain : ∀ c ∈ self, isBlank c = false := by
      intro c hc
      have hcq : needsQuotes c = false := by simpa using List.any_eq_false.mp h.2 c hc
      simp only [needsQuotes, Bool.or_eq_false_iff, beq_eq_false_iff_ne] at hcq
      simp [isBlank, hcq]
    have hdrop : (self ++ rest).dropWhile (!isBlank ·) = rest := by
      rw [List.dropWhile_append_of_pos (by simpa using hplain)]
      cases rest with
      | nil => rfl
      | cons c cs => simp [hblank c rfl]
    have hname : (commandLineToArgv (self ++ rest)).2
        = splitLine ((self ++ rest).dropWhile (!isBlank ·)) := by
      cases self with
      | nil => exact absurd rfl h.1
      | cons c cs =>
        have hc : c ≠ '"' := fun hc => hself (hc ▸ List.mem_cons_self)
        unfold commandLineToArgv
        split
        · rename_i heq; exact absurd (List.cons.inj heq).1 hc
        · rfl
    rw [hname, hdrop, hread]
  · have hbody : ∀ c ∈ quoteBody 0 self, c ≠ '"' := by
      rintro c hc rfl
      exact hself (mem_quoteBody (by decide) hc)
    have hdrop : (quoteBody 0 self ++ '"' :: rest).dropWhile (· ≠ '"') = '"' :: rest := by
      rw [List.dropWhile_append_of_pos (by simpa using hbody)]
      simp
    simp only [commandLineToArgv, List.cons_append, List.append_assoc, List.nil_append, hdrop,
      List.tail_cons, hread]

/-! ## 5. The round trip -/

/-- **Windows command-line quoting round-trips.**  Whatever strings without NUL the arguments
are, the rules read the line that `spawnDetached` hands over back as exactly them; and behind the
program's name, which as a path has no quotes, the child's own reader gives exactly them too. -/
theorem commandLine_roundtrip {args : List String} (h : ∀ a ∈ args, Char.ofNat 0 ∉ a.toList) :
    (splitLine (received (cmdline args))).map String.ofList = args
    ∧ ∀ self : String, Char.ofNat 0 ∉ self.toList → '"' ∉ self.toList →
      (commandLineToArgv (received (cmdline (self :: args)))).2.map String.ofList = args := by
  have hback : (args.map String.toList).map String.ofList = args := by simp
  refine ⟨?_, fun self hnul hquote => ?_⟩
  · rw [received_cmdline h, cmdline, splitLine_foldl, hback]
  · have hline : ∀ a ∈ self :: args, Char.ofNat 0 ∉ a.toList :=
      List.forall_mem_cons.mpr ⟨hnul, h⟩
    have hread := commandLineToArgv_quoteArg hquote (yields_args (args.map String.toList)) (by
      cases args <;> simp [isBlank])
    rw [received_cmdline hline, cmdline, List.map_cons, foldl_appendArg_cons, hread, hback]

/-- A path that ends in a backslash, one with a blank before such an end, quotes, and nothing. -/
theorem commandLine_roundtrip_windows_paths :
    (∀ a ∈ ["--config-dir", "C:\\s d\\", "x\\\"y", "C:\\t\\", ""],
      Char.ofNat 0 ∉ String.toList a)
    ∧ (splitLine (received (cmdline
        ["--config-dir", "C:\\s d\\", "x\\\"y", "C:\\t\\", ""]))).map String.ofList
      = ["--config-dir", "C:\\s d\\", "x\\\"y", "C:\\t\\", ""]
    ∧ (commandLineToArgv (received (cmdline ["C:\\Program Files\\logosctl.exe",
        "--config-dir", "C:\\s d\\", "x\\\"y", "C:\\t\\", ""]))).2.map String.ofList
      = ["--config-dir", "C:\\s d\\", "x\\\"y", "C:\\t\\", ""] := by
  have hargs : ∀ a ∈ ["--config-dir", "C:\\s d\\", "x\\\"y", "C:\\t\\", ""],
      Char.ofNat 0 ∉ String.toList a := by decide
  have hround := commandLine_roundtrip hargs
  exact ⟨hargs, hround.1,
    hround.2 "C:\\Program Files\\logosctl.exe" (by decide) (by decide)⟩

example : String.ofList (cmdline ["C:\\a b\\", "c\\d\\"]) = "\"C:\\a b\\\\\" c\\d\\" := by decide

end Logosctl.CommandLine
