/-
# Base64 for names and addresses, without padding

Three bytes are four numbers of six bits, the high bits first.  One or two bytes that are left at
the end make two or three numbers, the last of which is filled up with zeros.  Each number is one
character of an alphabet that needs no quoting in a path or an address.

The bytes can be had back, so different bytes are written differently (`base64Url_injective`).
-/
import Mathlib.Logic.Function.Basic
import Mathlib.Tactic.Common

namespace Logosctl.Library

/-! ## 1. Numbers of six bits -/

/-- Bytes as numbers of six bits. -/
def sextets : List UInt8 → List Nat
  | [] => []
  | [a] => [a.toNat / 4, a.toNat % 4 * 16]
  | [a, b] => [a.toNat / 4, a.toNat % 4 * 16 + b.toNat / 16, b.toNat % 16 * 4]
  | a :: b :: c :: bytes =>
    a.toNat / 4 :: (a.toNat % 4 * 16 + b.toNat / 16) :: (b.toNat % 16 * 4 + c.toNat / 64) ::
      c.toNat % 64 :: sextets bytes

/-- The bytes of such numbers. -/
def ofSextets : List Nat → List UInt8
  | [] | [_] => []
  | [w, x] => [UInt8.ofNat (w * 4 + x / 16)]
  | [w, x, y] => [UInt8.ofNat (w * 4 + x / 16), UInt8.ofNat (x % 16 * 16 + y / 4)]
  | w :: x :: y :: z :: ns =>
    UInt8.ofNat (w * 4 + x / 16) :: UInt8.ofNat (x % 16 * 16 + y / 4) ::
      UInt8.ofNat (y % 4 * 64 + z) :: ofSextets ns

theorem length_sextets (bytes : List UInt8) :
    (sextets bytes).length = (8 * bytes.length + 5) / 6 := by
  induction bytes using sextets.induct with
  | case1 => rfl
  | case2 a => simp [sextets]
  | case3 a b => simp [sextets]
  | case4 a b c bytes ih =>
    simp only [sextets, List.length_cons, ih]
    omega

theorem sextets_lt (bytes : List UInt8) : ∀ n ∈ sextets bytes, n < 64 := by
  induction bytes using sextets.induct with
  | case1 => exact nofun
  | case2 a =>
    have ha := a.toNat_lt
    simp only [sextets, List.forall_mem_cons]
    refine ⟨?_, ?_, List.forall_mem_nil _⟩ <;> omega
  | case3 a b =>
    have ha := a.toNat_lt
    have hb := b.toNat_lt
    simp only [sextets, List.forall_mem_cons]
    refine ⟨?_, ?_, ?_, List.forall_mem_nil _⟩ <;> omega
  | case4 a b c bytes ih =>
    have ha := a.toNat_lt
    have hb := b.toNat_lt
    have hc := c.toNat_lt
    simp only [sextets, List.forall_mem_cons]
    refine ⟨?_, ?_, ?_, ?_, ih⟩ <;> omega

theorem ofNat_eq {n : Nat} {b : UInt8} (h : n = b.toNat) : UInt8.ofNat n = b := by
  rw [h, UInt8.ofNat_toNat]

/-- **Nothing is lost.** -/
theorem ofSextets_sextets (bytes : List UInt8) : ofSextets (sextets bytes) = bytes := by
  induction bytes using sextets.induct with
  | case1 => rfl
  | case2 a =>
    have ha := @ofNat_eq (a.toNat / 4 * 4 + a.toNat % 4 * 16 / 16) a (by omega)
    rw [sextets, ofSextets, ha]
  | case3 a b =>
    have hb' := b.toNat_lt
    have ha := @ofNat_eq (a.toNat / 4 * 4 + (a.toNat % 4 * 16 + b.toNat / 16) / 16) a (by omega)
    have hb := @ofNat_eq ((a.toNat % 4 * 16 + b.toNat / 16) % 16 * 16 + b.toNat % 16 * 4 / 4) b
      (by omega)
    rw [sextets, ofSextets, ha, hb]
  | case4 a b c bytes ih =>
    have hb' := b.toNat_lt
    have hc' := c.toNat_lt
    have ha := @ofNat_eq (a.toNat / 4 * 4 + (a.toNat % 4 * 16 + b.toNat / 16) / 16) a (by omega)
    have hb := @ofNat_eq ((a.toNat % 4 * 16 + b.toNat / 16) % 16 * 16 +
      (b.toNat % 16 * 4 + c.toNat / 64) / 4) b (by omega)
    have hc := @ofNat_eq ((b.toNat % 16 * 4 + c.toNat / 64) % 4 * 64 + c.toNat % 64) c (by omega)
    rw [sextets, ofSextets, ha, hb, hc, ih]

/-! ## 2. The alphabet -/

/-- The character of a number of six bits. -/
def urlSafe (n : Nat) : Char :=
  if n < 26 then Char.ofNat ('A'.toNat + n)
  else if n < 52 then Char.ofNat ('a'.toNat + (n - 26))
  else if n < 62 then Char.ofNat ('0'.toNat + (n - 52))
  else if n = 62 then '-'
  else '_'

/-- The number of a character. -/
def ofUrlSafe (c : Char) : Nat :=
  if c.isUpper then c.toNat - 'A'.toNat
  else if c.isLower then c.toNat - 'a'.toNat + 26
  else if c.isDigit then c.toNat - '0'.toNat + 52
  else if c = '-' then 62
  else 63

theorem ofUrlSafe_urlSafe : ∀ n < 64, ofUrlSafe (urlSafe n) = n := by decide

/-- The text of bytes. -/
def base64Url (bytes : List UInt8) : List Char := (sextets bytes).map urlSafe

/-- The bytes of a text. -/
def ofBase64Url (text : List Char) : List UInt8 := ofSextets (text.map ofUrlSafe)

theorem ofBase64Url_base64Url (bytes : List UInt8) : ofBase64Url (base64Url bytes) = bytes := by
  have hnumbers : (sextets bytes).map (ofUrlSafe ∘ urlSafe) = sextets bytes :=
    (List.map_congr_left fun n hn => ofUrlSafe_urlSafe n (sextets_lt bytes n hn)).trans
      (List.map_id _)
  rw [ofBase64Url, base64Url, List.map_map, hnumbers, ofSextets_sextets]

/-- **Different bytes are different texts.** -/
theorem base64Url_injective : Function.Injective base64Url :=
  Function.LeftInverse.injective ofBase64Url_base64Url

theorem length_base64Url (bytes : List UInt8) :
    (base64Url bytes).length = (8 * bytes.length + 5) / 6 := by
  rw [base64Url, List.length_map, length_sextets]

end Logosctl.Library
