/-
# Numeric addresses

What `inet_pton` reads.  An IPv4 address is four decimal octets, none with a leading zero.  An
IPv6 address is eight groups of up to four hexadecimal digits; one `::` stands for the groups that
are left out, at least one of them, and the last two groups may be written as an IPv4 address.

An IPv6 address may be that of an IPv4 address, `::ffff:a.b.c.d`, and is bound as that
(`Address.unmapped`).  So the unspecified address of IPv4 has one spelling as an IPv4 address
(`eq_of_unspecified4`), and like that of IPv6 many as an IPv6 address.
-/
import Logosctl.Library.Decimal
import Mathlib.Data.List.TakeWhile
import Mathlib.Data.Vector.Basic
import Mathlib.Tactic.Common

namespace Logosctl.Library

/-! ## 1. IPv4 -/

/-- A decimal number below 256, written without leading zeros. -/
def octet (cs : List Char) : Option Nat :=
  if cs ≠ [] ∧ Digits cs ∧ (cs.head? = some '0' → cs = ['0']) ∧ value cs ≤ 255 then some (value cs)
  else none

/-- `inet_pton(AF_INET, …)`. -/
def inetPton4 (cs : List Char) : Option (List.Vector Nat 4) :=
  match (cs.splitOn '.').map octet with
  | [some a, some b, some c, some d] => some ⟨[a, b, c, d], rfl⟩
  | _ => none

theorem eq_of_octet_eq_zero {cs : List Char} (h : octet cs = some 0) : cs = ['0'] := by
  unfold octet at h
  split_ifs at h with hcs
  obtain ⟨hne, hdigits, hlead, -⟩ := hcs
  obtain ⟨c, ds, rfl⟩ := List.exists_cons_of_ne_nil hne
  have hzero : value (c :: ds) = 0 := Option.some.inj h
  rw [value_cons, Nat.add_eq_zero_iff, Nat.mul_eq_zero] at hzero
  refine hlead (congrArg some ?_)
  -- a leading digit other than zero would count
  have hdigit := Char.isDigit_iff_toNat.mp (digits_cons.mp hdigits).1
  rcases hzero.1 with hpow | hc
  · exact absurd hpow (Nat.pow_pos (by decide)).ne'
  · exact Char.toNat_inj.mp (by omega)

/-- **The unspecified address of IPv4 is spelled in one way.** -/
theorem eq_of_unspecified4 {cs : List Char} {octets : List.Vector Nat 4}
    (h : inetPton4 cs = some octets) (hzero : octets.toList = List.replicate 4 0) :
    cs = "0.0.0.0".toList := by
  unfold inetPton4 at h
  split at h
  · next a b c d hparts =>
    cases h
    simp only [List.Vector.toList, List.replicate, List.cons.injEq, and_true] at hzero
    obtain ⟨rfl, rfl, rfl, rfl⟩ := hzero
    have hall : cs.splitOn '.' = List.replicate 4 ['0'] := by
      rw [List.eq_replicate_iff]
      refine ⟨by simpa using congrArg List.length hparts, fun part hpart => ?_⟩
      refine eq_of_octet_eq_zero ?_
      simpa [hparts] using List.mem_map_of_mem (f := octet) hpart
    calc cs = ['.'].intercalate (cs.splitOn '.') := (List.intercalate_splitOn '.').symm
      _ = "0.0.0.0".toList := by rw [hall]; decide
  · cases h

/-! ## 2. IPv6 -/

def hexValue (c : Char) : Option Nat :=
  if c.isDigit then some (c.toNat - '0'.toNat)
  else if 'a' ≤ c ∧ c ≤ 'f' then some (c.toNat - 'a'.toNat + 10)
  else if 'A' ≤ c ∧ c ≤ 'F' then some (c.toNat - 'A'.toNat + 10)
  else none

/-- One to four hexadecimal digits. -/
def group (cs : List Char) : Option Nat :=
  if 1 ≤ cs.length ∧ cs.length ≤ 4 then
    cs.foldl (fun acc c => acc.bind fun n => (hexValue c).map (n * 16 + ·)) (some 0)
  else none

/-- Groups, the last of which may be an IPv4 address. -/
def groups : List (List Char) → Option (List Nat)
  | [] => some []
  | [last] =>
    match group last, inetPton4 last with
    | some g, _ => some [g]
    | none, some ⟨[a, b, c, d], _⟩ => some [a * 256 + b, c * 256 + d]
    | none, _ => none
  | cs :: rest =>
    match group cs, groups rest with
    | some g, some gs => some (g :: gs)
    | _, _ => none

/-- The groups on one side of a `::`, where there may be none. -/
def sideGroups (cs : List Char) : Option (List Nat) :=
  if cs = [] then some [] else groups (cs.splitOn ':')

/-- What stands before the first `::` and after it. -/
def splitDouble : List Char → Option (List Char × List Char)
  | ':' :: ':' :: cs => some ([], cs)
  | c :: cs => (splitDouble cs).map fun sides => (c :: sides.1, sides.2)
  | [] => none

/-- `inet_pton(AF_INET6, …)`.  An IPv4 address in front of a `::` is no group. -/
def inetPton6 (cs : List Char) : Option (List.Vector Nat 8) :=
  match splitDouble cs with
  | none =>
    match groups (cs.splitOn ':') with
    | some gs => if h : gs.length = 8 then some ⟨gs, h⟩ else none
    | none => none
  | some (left, right) =>
    if '.' ∈ left then none
    else
      match sideGroups left, sideGroups right with
      | some ls, some rs =>
        if h : ls.length + rs.length ≤ 7 then
          some ⟨ls ++ List.replicate (8 - (ls.length + rs.length)) 0 ++ rs, by
            simp only [List.length_append, List.length_replicate]
            omega⟩
        else none
      | _, _ => none

/-! ## 3. Addresses -/

inductive Address
  | v4 (octets : List.Vector Nat 4)
  | v6 (groups : List.Vector Nat 8)
  deriving DecidableEq

namespace Address

/-- The address that is meant: an IPv4 address that is mapped into IPv6 is that IPv4 address. -/
def unmapped : Address → Address
  | v6 ⟨[0, 0, 0, 0, 0, 0xffff, g, h], _⟩ => v4 ⟨[g / 256, g % 256, h / 256, h % 256], rfl⟩
  | a => a

@[simp] theorem unmapped_v4 (octets : List.Vector Nat 4) : (v4 octets).unmapped = v4 octets := rfl

/-- The address that every interface answers to, `0.0.0.0` or `::`. -/
def Unspecified (a : Address) : Prop :=
  a.unmapped = v4 (.replicate 4 0) ∨ a.unmapped = v6 (.replicate 8 0)

instance (a : Address) : Decidable a.Unspecified := inferInstanceAs (Decidable (_ ∨ _))

end Address

/-- A string as the C library is handed it: up to the first NUL. -/
def cString (text : String) : List Char := text.toList.takeWhile fun c => c.toNat ≠ 0

/-- Without a NUL it is handed all of it. -/
theorem cString_eq {text : String} (h : ∀ c ∈ text.toList, c.toNat ≠ 0) :
    cString text = text.toList :=
  List.takeWhile_eq_self_iff.mpr fun c hc => decide_eq_true (h c hc)

/-- The address that a text is the spelling of. -/
def numericAddress (text : String) : Option Address :=
  match inetPton6 (cString text) with
  | some groups => some (.v6 groups)
  | none => (inetPton4 (cString text)).map .v4

example : (numericAddress "::ffff:0.0.0.0").map Address.unmapped = numericAddress "0.0.0.0" := by
  decide +kernel

end Logosctl.Library
