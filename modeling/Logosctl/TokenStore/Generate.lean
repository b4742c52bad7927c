/-
# How a token is written

`generateToken` walks the 256 bits of a token through an accumulator of 32 bits.  The accumulator
wraps from the fifth byte on, and what it loses are bits that were written long before: only its low
bits are still to be written, and there are never more than twelve of them.

So a token is the usual text of its bytes, and different bytes are different tokens
(`generateToken_lossless`).
-/
import Logosctl.Library.Base64
import Logosctl.TokenStore

namespace Logosctl.TokenStore

open Library

/-! ## 1. The accumulator -/

/-- The low `bits` bits of the accumulator, which are those that are still to be written. -/
def Pends (acc : UInt32) (bits p : Nat) : Prop := acc.toNat % 2 ^ bits = p

section Accumulator

variable {acc : UInt32} {bits p n : Nat}

theorem alpha_eq {chunk : UInt32} (h : chunk.toNat = n) (hn : n < 64) :
    alpha chunk = urlSafe n := by
  have hall : ∀ k < 64, alpha (UInt32.ofNat k) = urlSafe k := by decide +kernel
  rw [← hall n hn, ← h, UInt32.ofNat_toNat]

/-- A byte is pushed in from the right; what falls out on the left is not pending. -/
theorem Pends.push (h : Pends acc bits p) (hbits : bits ≤ 24) (byte : UInt8) :
    Pends ((acc <<< 8) ||| byte.toUInt32) (bits + 8) (p * 256 + byte.toNat) := by
  have hbyte := byte.toNat_lt
  have hacc : ((acc <<< 8) ||| byte.toUInt32).toNat =
      acc.toNat % 2 ^ 24 * 256 + byte.toNat := by
    have hshift : (acc <<< 8).toNat = (acc.toNat % 2 ^ 24) <<< 8 := by
      rw [UInt32.toNat_shiftLeft]
      simp only [Nat.shiftLeft_eq]
      have height : UInt32.toNat 8 % 32 = 8 := rfl
      rw [height]
      omega
    rw [UInt32.toNat_or, hshift, UInt8.toNat_toUInt32, ← Nat.shiftLeft_add_eq_or_of_lt hbyte,
      Nat.shiftLeft_eq]
  have hlow : acc.toNat % 2 ^ 24 % 2 ^ bits = p := by
    rw [Nat.mod_mod_of_dvd _ (Nat.pow_dvd_pow 2 hbits)]
    exact h
  have hpow : 2 ^ (bits + 8) = 256 * 2 ^ bits := by
    rw [Nat.pow_add, Nat.mul_comm]
  have hdiv : (acc.toNat % 2 ^ 24 * 256 + byte.toNat) / 256 = acc.toNat % 2 ^ 24 := by omega
  rw [Pends, hacc, hpow, Nat.mod_mul, hdiv, hlow]
  omega

/-- A shift by less than the width is by as much. -/
theorem shift_ofNat (h : n < 32) : (UInt32.ofNat n).toNat % 32 = n := by
  rw [UInt32.toNat_ofNat']
  omega

theorem toNat_and_chunk (x : UInt32) : (x &&& 0x3F).toNat = x.toNat % 64 := by
  rw [UInt32.toNat_and]
  exact Nat.and_two_pow_sub_one_eq_mod _ 6

/-- The chunk that is written next, and what is pending then. -/
theorem Pends.chunk (h : Pends acc (bits + 6) p) (hbits : bits < 32) :
    ((acc >>> UInt32.ofNat bits) &&& 0x3F).toNat = p / 2 ^ bits ∧
      Pends acc bits (p % 2 ^ bits) := by
  have hpow : 2 ^ (bits + 6) = 2 ^ bits * 64 := Nat.pow_add ..
  unfold Pends at h ⊢
  rw [hpow] at h
  constructor
  · rw [toNat_and_chunk, UInt32.toNat_shiftRight, shift_ofNat hbits, Nat.shiftRight_eq_div_pow,
      ← h, Nat.mod_mul_right_div_self]
  · rw [← h, Nat.mod_mul_right_mod]

/-- The last chunk is filled up with zeros. -/
theorem Pends.last (h : Pends acc bits p) (hpos : 0 < bits) (hbits : bits < 6) :
    ((acc <<< UInt32.ofNat (6 - bits)) &&& 0x3F).toNat = p * 2 ^ (6 - bits) := by
  have hpow : 64 = 2 ^ bits * 2 ^ (6 - bits) := by
    rw [← Nat.pow_add, Nat.add_sub_cancel' (by omega)]
  have hword : (64 : Nat) ∣ 2 ^ 32 := by decide
  rw [toNat_and_chunk, UInt32.toNat_shiftLeft, shift_ofNat (by omega), Nat.shiftLeft_eq,
    Nat.mod_mod_of_dvd _ hword, ← h]
  conv_lhs => rw [hpow]
  rw [Nat.mul_mod_mul_right]

theorem Pends.lt (h : Pends acc bits p) : p < 2 ^ bits := by
  rw [← h]
  exact Nat.mod_lt _ (Nat.two_pow_pos bits)

end Accumulator

/-! ## 2. The loops -/

section Loops

variable {acc : UInt32} {byte : UInt8} {bits p q r : Nat} {s : List Char} {raw : List UInt8}

/-- What the inner loop writes next. -/
theorem emitChunks_next (h : Pends acc (bits + 6) p) (hbits : bits < 32)
    (hroom : s.length < kOutChars) :
    emitChunks acc (bits + 6) s = emitChunks acc bits (s ++ [urlSafe (p / 2 ^ bits)]) := by
  have hlt : p / 2 ^ bits < 64 := Nat.div_lt_of_lt_mul (Nat.pow_add 2 bits 6 ▸ h.lt)
  rw [emitChunks, if_pos hroom, alpha_eq (h.chunk hbits).1 hlt]

/-- A byte after which less than another chunk is pending. -/
theorem emitBytes_one (h : Pends acc bits p) (hbits : bits < 4) (hroom : s.length < kOutChars)
    (hq : (p * 256 + byte.toNat) / 2 ^ (bits + 2) = q)
    (hr : (p * 256 + byte.toNat) % 2 ^ (bits + 2) = r) :
    ∃ acc', Pends acc' (bits + 2) r ∧
      emitBytes (byte :: raw) acc bits s = emitBytes raw acc' (bits + 2) (s ++ [urlSafe q]) := by
  have hpush := h.push (by omega) byte
  have hrest : ∀ acc' s', emitChunks acc' (bits + 2) s' = (bits + 2, s') := by
    intro acc' s'
    rw [emitChunks]
    omega
  refine ⟨_, hr ▸ (Pends.chunk hpush (by omega)).2, ?_⟩
  rw [emitBytes, if_pos hroom]
  simp only [emitChunks_next hpush (by omega : bits + 2 < 32) hroom, hrest, hq]

/-- With nothing pending, a byte leaves two bits. -/
theorem emitBytes_fresh (acc : UInt32) (a : UInt8) (hroom : s.length < kOutChars) :
    ∃ acc', Pends acc' 2 (a.toNat % 4) ∧
      emitBytes (a :: raw) acc 0 s = emitBytes raw acc' 2 (s ++ [urlSafe (a.toNat / 4)]) :=
  @emitBytes_one acc a 0 0 (a.toNat / 4) (a.toNat % 4) s raw (Nat.mod_one _) (by omega) hroom
    (by omega) (by omega)

/-- And the next one four. -/
theorem emitBytes_pair (acc : UInt32) (a b : UInt8) (hroom : s.length + 1 < kOutChars) :
    ∃ acc', Pends acc' 4 (b.toNat % 16) ∧
      emitBytes (a :: b :: raw) acc 0 s =
        emitBytes raw acc' 4
          (s ++ [urlSafe (a.toNat / 4), urlSafe (a.toNat % 4 * 16 + b.toNat / 16)]) := by
  have hb := b.toNat_lt
  obtain ⟨acc₁, hpend, hfirst⟩ := @emitBytes_fresh s (b :: raw) acc a (by omega)
  obtain ⟨acc₂, hpend₂, hsecond⟩ := @emitBytes_one acc₁ b 2 _
    (a.toNat % 4 * 16 + b.toNat / 16) (b.toNat % 16) (s ++ [urlSafe (a.toNat / 4)]) raw
    hpend (by omega) (by rw [List.length_append, List.length_singleton]; omega) (by omega)
    (by omega)
  exact ⟨acc₂, hpend₂, by rw [hfirst, hsecond, List.append_assoc, List.singleton_append]⟩

/-- A byte after which two chunks are complete. -/
theorem emitBytes_two (h : Pends acc 4 p) (hroom : s.length + 1 < kOutChars)
    (hq : (p * 256 + byte.toNat) / 64 = q) (hr : (p * 256 + byte.toNat) % 64 = r) :
    ∃ acc', emitBytes (byte :: raw) acc 4 s =
      emitBytes raw acc' 0 (s ++ [urlSafe q, urlSafe r]) := by
  have hpush := h.push (by omega) byte
  obtain ⟨-, hlow⟩ := Pends.chunk hpush (by omega)
  refine ⟨(acc <<< 8) ||| byte.toUInt32, ?_⟩
  rw [emitBytes, if_pos (by omega)]
  have hfirst := emitChunks_next (s := s) hpush (by omega) (by omega)
  have hsecond := @emitChunks_next _ 0 _ (s ++ [urlSafe ((p * 256 + byte.toNat) / 2 ^ 6)]) hlow
    (by omega) (by simpa using hroom)
  have hend : ∀ acc' s', emitChunks acc' 0 s' = (0, s') := fun _ _ => rfl
  simp only [hfirst, hsecond, hend]
  simp [hq, hr]

/-- What follows the loops. -/
def finish : UInt32 × Nat × List Char → List Char
  | (acc, bits, s) =>
    if s.length < kOutChars ∧ 0 < bits then
      s ++ [alpha ((acc <<< UInt32.ofNat (6 - bits)) &&& 0x3F)]
    else s

/-- The last chunk, when there is one. -/
theorem finish_pends (h : Pends acc bits p) (hpos : 0 < bits) (hbits : bits < 6)
    (hroom : s.length < kOutChars) :
    finish (acc, bits, s) = s ++ [urlSafe (p * 2 ^ (6 - bits))] := by
  have hlt : p * 2 ^ (6 - bits) < 64 := by
    have hpow : 64 = 2 ^ bits * 2 ^ (6 - bits) := by
      rw [← Nat.pow_add, Nat.add_sub_cancel' (by omega)]
    calc p * 2 ^ (6 - bits) < 2 ^ bits * 2 ^ (6 - bits) :=
          Nat.mul_lt_mul_of_pos_right h.lt (Nat.two_pow_pos _)
      _ = 64 := hpow.symm
  rw [finish, if_pos ⟨hroom, hpos⟩, alpha_eq (h.last hpos hbits) hlt]

/-- **From nothing pending, the loops write the text of the bytes**, three of them at a time. -/
theorem finish_emitBytes (raw : List UInt8) : ∀ (acc : UInt32) (s : List Char),
    s.length + (sextets raw).length ≤ kOutChars →
      finish (emitBytes raw acc 0 s) = s ++ base64Url raw := by
  induction raw using sextets.induct with
  | case1 =>
    intro acc s hroom
    have hdone : finish (acc, 0, s) = s := if_neg fun h => absurd h.2 (Nat.lt_irrefl 0)
    simp [emitBytes, base64Url, sextets, hdone]
  | case2 a =>
    intro acc s hroom
    simp only [sextets, List.length_cons, List.length_nil] at hroom
    obtain ⟨acc₁, hpend, hfirst⟩ := @emitBytes_fresh s [] acc a (by omega)
    rw [hfirst, emitBytes, finish_pends hpend (by omega) (by omega)
      (by rw [List.length_append, List.length_singleton]; omega)]
    simp [base64Url, sextets]
  | case3 a b =>
    intro acc s hroom
    simp only [sextets, List.length_cons, List.length_nil] at hroom
    obtain ⟨acc₂, hpend, hpair⟩ := @emitBytes_pair s [] acc a b (by omega)
    rw [hpair, emitBytes, finish_pends hpend (by omega) (by omega)
      (by simp only [List.length_append, List.length_cons, List.length_nil]; omega)]
    simp [base64Url, sextets]
  | case4 a b c raw ih =>
    intro acc s hroom
    have hc := c.toNat_lt
    simp only [sextets, List.length_cons] at hroom
    obtain ⟨acc₂, hpend, hpair⟩ := @emitBytes_pair s (c :: raw) acc a b (by omega)
    obtain ⟨acc₃, hthird⟩ := @emitBytes_two acc₂ c _ (b.toNat % 16 * 4 + c.toNat / 64)
      (c.toNat % 64)
      (s ++ [urlSafe (a.toNat / 4), urlSafe (a.toNat % 4 * 16 + b.toNat / 16)]) raw hpend
      (by simp only [List.length_append, List.length_cons, List.length_nil]; omega) (by omega)
      (by omega)
    rw [hpair, hthird, ih _ _ (by
      simp only [List.length_append, List.length_cons, List.length_nil]; omega)]
    simp [base64Url, sextets]

end Loops

/-! ## 3. Tokens -/

theorem generateToken_some (raw : Vector UInt8 32) :
    generateToken (some raw) = String.ofList (base64Url raw.toList) := by
  have hroom : (sextets raw.toList).length ≤ kOutChars := by
    rw [length_sextets, Vector.length_toList]
    decide
  have hall := finish_emitBytes raw.toList 0 [] (by simpa using hroom)
  rw [List.nil_append] at hall
  rw [← hall, generateToken]
  simp only [finish]
  split <;> rfl

/-- **Tokens are lossless**: a token is the 43 characters of its 32 bytes, and other bytes are
another token. -/
theorem generateToken_lossless :
    (∀ raw : Vector UInt8 32, generateToken (some raw) = String.ofList (base64Url raw.toList) ∧
      (generateToken (some raw)).length = 43) ∧
    Function.Injective fun raw : Vector UInt8 32 => generateToken (some raw) := by
  refine ⟨fun raw => ⟨generateToken_some raw, ?_⟩, ?_⟩
  · rw [generateToken_some, String.length_ofList, length_base64Url, Vector.length_toList]
  · intro xs ys h
    have htexts : base64Url xs.toList = base64Url ys.toList := by
      simpa only [generateToken_some, String.ofList_inj] using h
    exact Vector.toList_inj.mp (base64Url_injective htexts)

end Logosctl.TokenStore
