/-
# The Windows argument rules

Windows hands a program one string, and the program splits it.  Blanks separate arguments except
between quotes; a run of backslashes means itself unless a quote follows it: then every two of
them are one backslash, and what is left over decides whether the quote is a character of the
argument (odd) or opens or closes quoting (even).

`splitArgs` is that reader, with the run of backslashes it has passed as a count.  What follows
an argument matters to the last run of it only, so a tail is described by what it makes of the
argument being read: `Yields`.
-/
import Mathlib.Data.List.Basic

namespace Logosctl.Library

/-- A separator outside quotes. -/
def isBlank (c : Char) : Bool := c == ' ' || c == '\t'

/-- The argument being read once `n` backslashes turn out to mean themselves; `none` while
between arguments. -/
def withSlashes (n : Nat) (arg : Option (List Char)) : Option (List Char) :=
  if n = 0 then arg else some (arg.getD [] ++ List.replicate n '\\')

/-- Split what is left of a line: `quoted` inside quotes, `n` backslashes just passed, `arg` the
argument being read. -/
def splitArgs (quoted : Bool) (n : Nat) (arg : Option (List Char)) :
    List Char → List (List Char)
  | [] => (withSlashes n arg).toList
  | c :: cs =>
    if c = '\\' then splitArgs quoted (n + 1) arg cs
    else if c = '"' then
      let half := arg.getD [] ++ List.replicate (n / 2) '\\'
      if n % 2 = 0 then splitArgs (!quoted) 0 (some half) cs
      else splitArgs quoted 0 (some (half ++ ['"'])) cs
    else if isBlank c && !quoted then
      (withSlashes n arg).toList ++ splitArgs false 0 none cs
    else splitArgs quoted 0 (some (arg.getD [] ++ List.replicate n '\\' ++ [c])) cs

/-- The arguments of a line, by the rules alone. -/
def splitLine (line : List Char) : List (List Char) := splitArgs false 0 none line

/-- `CommandLineToArgvW`: the program's name is read by a simpler rule, to its closing quote or
to the first blank; what follows it goes by the rules. -/
def commandLineToArgv (line : List Char) : List Char × List (List Char) :=
  match line with
  | '"' :: cs => (cs.takeWhile (· ≠ '"'), splitLine (cs.dropWhile (· ≠ '"')).tail)
  | cs => (cs.takeWhile (!isBlank ·), splitLine (cs.dropWhile (!isBlank ·)))

/-! ## 1. What the reader makes of one more piece -/

@[simp] theorem withSlashes_zero (arg : Option (List Char)) : withSlashes 0 arg = arg := rfl

theorem splitArgs_replicate (quoted : Bool) (arg : Option (List Char)) (cs : List Char) :
    ∀ n k : Nat, splitArgs quoted n arg (List.replicate k '\\' ++ cs)
      = splitArgs quoted (n + k) arg cs
  | n, 0 => rfl
  | n, k + 1 => by
    rw [List.replicate_succ, List.cons_append, splitArgs, if_pos rfl,
      splitArgs_replicate quoted arg cs (n + 1) k, Nat.add_right_comm, Nat.add_assoc]

/-- Twice `n` backslashes and a quote: `n` of them, and quoting toggles. -/
theorem splitArgs_even (quoted : Bool) (arg : List Char) (n : Nat) (cs : List Char) :
    splitArgs quoted 0 (some arg) (List.replicate (2 * n) '\\' ++ '"' :: cs)
      = splitArgs (!quoted) 0 (some (arg ++ List.replicate n '\\')) cs := by
  have hhalf : 2 * n / 2 = n := by omega
  simp [splitArgs_replicate, splitArgs, hhalf]

/-- One backslash more: `n` of them and the quote itself. -/
theorem splitArgs_odd (quoted : Bool) (arg : List Char) (n : Nat) (cs : List Char) :
    splitArgs quoted 0 (some arg) (List.replicate (2 * n + 1) '\\' ++ '"' :: cs)
      = splitArgs quoted 0 (some (arg ++ List.replicate n '\\' ++ ['"'])) cs := by
  have hhalf : (2 * n + 1) / 2 = n := by omega
  have hodd : (2 * n + 1) % 2 = 1 := by omega
  simp [splitArgs_replicate, splitArgs, hhalf, hodd]

/-- Before anything but a quote, backslashes mean themselves. -/
theorem splitArgs_literal (arg : List Char) (n : Nat) {c : Char} (cs : List Char)
    (hslash : c ≠ '\\') (hquote : c ≠ '"') :
    splitArgs true 0 (some arg) (List.replicate n '\\' ++ c :: cs)
      = splitArgs true 0 (some (arg ++ List.replicate n '\\' ++ [c])) cs := by
  simp [splitArgs_replicate, splitArgs, hslash, hquote]

/-! ## 2. Tails that end an argument -/

/-- Whatever argument is being read when `rest` begins, outside quotes, ends there, and the
others are `args`. -/
def Yields (rest : List Char) (args : List (List Char)) : Prop :=
  ∀ n arg, splitArgs false n arg rest = (withSlashes n arg).toList ++ args

theorem yields_nil : Yields [] [] := fun n arg => by simp [splitArgs]

theorem yields_blank {c : Char} (hc : isBlank c = true) (cs : List Char) :
    Yields (c :: cs) (splitLine cs) := by
  intro n arg
  have hslash : c ≠ '\\' := by rintro rfl; exact absurd hc (by decide)
  have hquote : c ≠ '"' := by rintro rfl; exact absurd hc (by decide)
  simp [splitArgs, splitLine, hslash, hquote, hc]

/-- An argument without blanks or quotes is read as it stands. -/
theorem splitArgs_bare {rest : List Char} {args : List (List Char)} (hrest : Yields rest args) :
    ∀ {a : List Char}, (∀ c ∈ a, isBlank c = false ∧ c ≠ '"') → ∀ (n : Nat)
      (arg : Option (List Char)), splitArgs false n arg (a ++ rest)
        = (if a = [] then withSlashes n arg
            else some (arg.getD [] ++ List.replicate n '\\' ++ a)).toList ++ args
  | [], _, n, arg => hrest n arg
  | c :: a, h, n, arg => by
    obtain ⟨hblank, hquote⟩ := h c List.mem_cons_self
    have htail : ∀ d ∈ a, isBlank d = false ∧ d ≠ '"' := fun d hd => h d (List.mem_cons_of_mem _ hd)
    rw [List.cons_append, if_neg (List.cons_ne_nil c a)]
    by_cases hslash : c = '\\'
    · subst hslash
      rw [splitArgs, if_pos rfl, splitArgs_bare hrest htail]
      -- the run goes on: one backslash more before the rest of `a`
      cases a <;> simp [withSlashes, List.replicate_succ']
    · rw [splitArgs, if_neg hslash, if_neg hquote, if_neg (by simp [hblank]),
        splitArgs_bare hrest htail]
      cases a <;> simp

end Logosctl.Library
