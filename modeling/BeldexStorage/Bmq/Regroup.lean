import Mathlib.Tactic.Ring
import Mathlib.Data.List.Basic

/-! # Bytes, and the bit accumulator of bmq's codecs

A `std::string` of key data, hex text or base64 text is a list of bytes (`Bytes`).
bmq's base64 and base32z codecs all run the same loop: each input digit is shifted
into an accumulator, and whenever enough bits are pending an output digit is shifted
out of its top.  This module says once what such a loop keeps true (`Regrouped`): the
digits read so far and the digits written so far, followed by the pending bits, are
the same bit string.  `Regrouped.absorb` and `Regrouped.emit` are its two moves;
`Regrouped.readback` is what a decoder run after an encoder run concludes from it.
-/
namespace Bmq

/-- The contents of a `std::string` or `std::string_view`. -/
abbrev Bytes := List UInt8

/-- A character literal of the source, as the byte the compiler stores for it. -/
def byte (c : Char) : UInt8 := c.toNat.toUInt8

/-- A string literal of the source, as its bytes. -/
def bytesOf (s : String) : Bytes := s.toList.map byte

/-! ### Reading digits as a number -/

/-- The big-endian value of `ds`, each element read as a `w`-bit digit by `f`. -/
def digitsValue (w : Nat) (f : UInt8 → Nat) (ds : Bytes) : Nat :=
  ds.foldl (fun v c => v * 2 ^ w + f c) 0

section DigitsValue
variable {w : Nat} {f : UInt8 → Nat}

@[simp] theorem digitsValue_nil : digitsValue w f [] = 0 := rfl

@[simp] theorem digitsValue_append_singleton (ds : Bytes) (c : UInt8) :
    digitsValue w f (ds ++ [c]) = digitsValue w f ds * 2 ^ w + f c := by
  simp [digitsValue, List.foldl_append]

end DigitsValue

/-- Equal-length byte strings with the same big-endian value are equal. -/
theorem digitsValue_inj : ∀ {xs ys : Bytes}, xs.length = ys.length →
    digitsValue 8 UInt8.toNat xs = digitsValue 8 UInt8.toNat ys → xs = ys := by
  intro xs
  induction xs using List.reverseRecOn with
  | nil => intro ys hl _; exact (List.eq_nil_of_length_eq_zero hl.symm).symm
  | append_singleton xs a ih =>
    intro ys hl hv
    obtain ⟨ys, b, rfl⟩ := (List.eq_nil_or_concat ys).resolve_left (by rintro rfl; simp at hl)
    rw [List.concat_eq_append] at hl hv ⊢
    simp only [digitsValue_append_singleton] at hv
    have ha := a.toNat_lt_size
    have hb := b.toNat_lt_size
    have hab : a.toNat = b.toNat := by simp only [UInt8.size] at ha hb; omega
    rw [ih (by simpa using hl) (by simp only [UInt8.size] at ha hb; omega),
      UInt8.toNat.inj hab]

/-! ### The accumulator -/

/-- The state of a bit-accumulator loop: the pending bits `acc` (`curr` in bmq's
decoders, `r` in its encoders), how many of them there are, and what has been written. -/
structure BitAcc where
  acc : Nat
  bits : Nat
  out : Bytes

/-- After `n` input digits of `win` bits with value `v`, the loop holds them
regrouped: the written `wout`-bit digits (read back by `f`) followed by the `bits`
pending bits are the same bit string. -/
structure Regrouped (win wout : Nat) (f : UInt8 → Nat) (n v : Nat) (s : BitAcc) : Prop where
  value_eq : v = digitsValue wout f s.out * 2 ^ s.bits + s.acc
  acc_lt : s.acc < 2 ^ s.bits
  length_eq : win * n = wout * s.out.length + s.bits

namespace Regrouped
variable {win wout : Nat} {f : UInt8 → Nat} {n v : Nat} {s : BitAcc}

theorem init : Regrouped win wout f 0 0 ⟨0, 0, []⟩ := ⟨rfl, Nat.one_pos, by simp⟩

/-- Shifting one `win`-bit digit into the accumulator. -/
theorem absorb (h : Regrouped win wout f n v s) {d : Nat} (hd : d < 2 ^ win) :
    Regrouped win wout f (n + 1) (v * 2 ^ win + d) ⟨s.acc * 2 ^ win + d, s.bits + win, s.out⟩ := by
  obtain ⟨hv, hacc, hlen⟩ := h
  refine ⟨by rw [hv, Nat.pow_add]; ring, ?_, by simp only [Nat.mul_succ]; omega⟩
  calc s.acc * 2 ^ win + d < (s.acc + 1) * 2 ^ win := by rw [Nat.succ_mul]; omega
    _ ≤ 2 ^ s.bits * 2 ^ win := Nat.mul_le_mul_right _ hacc
    _ = 2 ^ (s.bits + win) := (Nat.pow_add ..).symm

/-- The top `wout` pending bits form a `wout`-bit digit. -/
theorem digit_lt (h : Regrouped win wout f n v s) {k : Nat} (hk : s.bits = k + wout) :
    s.acc / 2 ^ k < 2 ^ wout := by
  rw [Nat.div_lt_iff_lt_mul (Nat.two_pow_pos k), ← Nat.pow_add, Nat.add_comm, ← hk]
  exact h.acc_lt

/-- Shifting the top `wout` pending bits out as one digit `g`, which `f` reads back. -/
theorem emit (h : Regrouped win wout f n v s) {k : Nat} (hk : s.bits = k + wout)
    {g : Nat → UInt8} (hg : ∀ x < 2 ^ wout, f (g x) = x) :
    Regrouped win wout f n v ⟨s.acc % 2 ^ k, k, s.out ++ [g (s.acc / 2 ^ k)]⟩ := by
  have hq := h.digit_lt hk
  obtain ⟨hv, hacc, hlen⟩ := h
  refine ⟨?_, Nat.mod_lt _ (Nat.two_pow_pos k), ?_⟩
  · simp only [digitsValue_append_singleton, hg _ hq]
    conv_lhs => rw [hv, hk, ← Nat.div_add_mod s.acc (2 ^ k)]
    rw [Nat.pow_add]; ring
  · simp only [List.length_append, List.length_singleton, Nat.mul_succ]; omega

/-- What a decoder run concludes from an encoder run: if the decoder has regrouped
digits whose value is the bytes `xs` followed by `e` zero bits, with fewer than 8 bits
left pending, it has written exactly `xs`. -/
theorem readback (h : Regrouped win 8 UInt8.toNat n v s) (hbits : s.bits < 8) {xs : Bytes}
    {e : Nat} (hv : v = digitsValue 8 UInt8.toNat xs * 2 ^ e) (hn : win * n = 8 * xs.length + e)
    (he : e < 8) : s.out = xs := by
  obtain ⟨hv', hacc, hlen⟩ := h
  have hlen' : s.out.length = xs.length := by omega
  have hbe : s.bits = e := by omega
  subst hbe
  have hpos := Nat.two_pow_pos s.bits
  refine digitsValue_inj hlen' ?_
  have := congrArg (· / 2 ^ s.bits) (hv.symm.trans hv')
  simp only [Nat.mul_div_cancel _ hpos] at this
  rw [this, Nat.add_comm, Nat.add_mul_div_right _ _ hpos, Nat.div_eq_of_lt hacc, Nat.zero_add]

end Regrouped

/-! ### The bit operations of the loops, as arithmetic -/

theorem shiftLeft_or_of_lt {a b n : Nat} (hb : b < 2 ^ n) : a <<< n ||| b = a * 2 ^ n + b := by
  rw [Nat.shiftLeft_eq, Nat.mul_comm, ← Nat.mul_add_lt_is_or hb]

theorem and_shiftLeft_sub_one (a n : Nat) : a &&& ((1 <<< n) - 1) = a % 2 ^ n := by
  rw [Nat.shiftLeft_eq, Nat.one_mul, Nat.and_pow_two_sub_one_eq_mod]

/-- A bound on each branch bounds an `if`: the lookup tables are `if` chains, and this
bounds them one branch at a time, each from its own condition. -/
theorem ite_lt_of_imp {P : Prop} [Decidable P] {a b n : Nat} (ha : P → a < n) (hb : ¬P → b < n) :
    (if P then a else b) < n := by
  split <;> [exact ha ‹_›; exact hb ‹_›]

end Bmq
