import Mathlib.Data.List.Nodup
import BeldexStorage.Bmq.Hex

/-! # bmq's base32z codec

`bmq/base32z.h`: z-base-32, five bits per character, no padding.  `to_base32z`
shifts each byte into an accumulator and writes a character whenever five bits are
pending, then one last character for what is left; `from_base32z` shifts five bits per
character in and writes a byte whenever eight are pending, dropping what is left.

As for base64, both loops keep `Regrouped` (`toBase32z_run`, `fromBase32z_run`); the
round trip `fromBase32z_toBase32z` and the decoded length `length_fromBase32z`
follow from it.
-/
namespace Bmq

/-! ### The lookup tables -/

/-- `b32z_lut.to_b32z_lut`, the z-base-32 alphabet. -/
def b32zAlphabet : Bytes := bytesOf "ybndrfg8ejkmcpqxot1uwisza345h769"

/-- `b32z_lut.to_b32z`: the character of a 5-bit value. -/
def toB32z (b : UInt8) : UInt8 := b32zAlphabet.getD b.toNat 0

/-- `b32z_lut.from_b32z`.  The table is filled from the alphabet: each character maps
to its index, and the upper case of each letter to the same index; every other byte
stays `0`. -/
def fromB32z (c : UInt8) : Nat :=
  if asciiLower c ∈ b32zAlphabet then b32zAlphabet.indexOf (asciiLower c) else 0

/-- The test of `is_base32z`: a zero table entry is a character only for `y` and `Y`. -/
def isBase32zChar (c : UInt8) : Bool :=
  fromB32z c != 0 || c.toNat == 'y'.toNat || c.toNat == 'Y'.toNat

/-! ### The codec -/

/-- One iteration of `to_base32z`'s loop: eight bits in, one or two characters out. -/
def toBase32zStep (s : BitAcc) (c : UInt8) : BitAcc :=
  let r := s.acc <<< 8 ||| c.toNat
  let bits := s.bits + 3
  let out := s.out ++ [toB32z (UInt8.ofNat (r >>> bits))]
  let r := r &&& ((1 <<< bits) - 1)
  if bits ≥ 5 then
    let bits := bits - 5
    ⟨r &&& ((1 <<< bits) - 1), bits, out ++ [toB32z (UInt8.ofNat (r >>> bits))]⟩
  else ⟨r, bits, out⟩

/-- The end of `to_base32z`, after its loop: one character for any bits left over. -/
def toBase32zFinish (st : BitAcc) : Bytes :=
  if st.bits > 0 then st.out ++ [toB32z (UInt8.ofNat (st.acc <<< (5 - st.bits)))] else st.out

/-- `to_base32z`. -/
def toBase32z (s : Bytes) : Bytes := toBase32zFinish (s.foldl toBase32zStep ⟨0, 0, []⟩)

/-- One iteration of `from_base32z`'s loop: five bits in, a byte out once eight are
pending. -/
def fromBase32zStep (s : BitAcc) (c : UInt8) : BitAcc :=
  let curr := s.acc <<< 5 ||| fromB32z c
  if s.bits ≥ 3 then
    let bits := s.bits - 3
    ⟨curr &&& ((1 <<< bits) - 1), bits, s.out ++ [UInt8.ofNat (curr >>> bits)]⟩
  else ⟨curr, s.bits + 5, s.out⟩

/-- `from_base32z`: the bits left over at the end are dropped. -/
def fromBase32z (s : Bytes) : Bytes := (s.foldl fromBase32zStep ⟨0, 0, []⟩).out

/-- `is_base32z`. -/
def isBase32z (s : Bytes) : Bool := s.all isBase32zChar

/-! ### The tables agree -/

theorem fromB32z_lt (c : UInt8) : fromB32z c < 32 := by
  have hl : b32zAlphabet.length = 32 := by decide
  simp only [fromB32z]
  split_ifs <;> first | exact hl ▸ List.indexOf_lt_length.mpr ‹_› | decide

theorem b32zAlphabet_nodup : b32zAlphabet.Nodup := by decide

theorem not_upper_of_mem_b32zAlphabet :
    ∀ c ∈ b32zAlphabet, ¬('A'.toNat ≤ c.toNat ∧ c.toNat ≤ 'Z'.toNat) := by decide

/-- The table `from_b32z` is filled from reads each character of the alphabet back as
its index, the alphabet having no character twice. -/
theorem fromB32z_toB32z : ∀ v < 32, fromB32z (toB32z (UInt8.ofNat v)) = v := fun v hv => by
  have hl : v < b32zAlphabet.length := hv
  have hget : toB32z (UInt8.ofNat v) = b32zAlphabet.get ⟨v, hl⟩ := by
    simp [toB32z, Nat.mod_eq_of_lt (by omega : v < 256), List.getElem?_eq_getElem hl]
  have hmem := List.get_mem b32zAlphabet v hl
  rw [hget, fromB32z, asciiLower, if_neg (not_upper_of_mem_b32zAlphabet _ hmem), if_pos hmem]
  exact List.get_indexOf b32zAlphabet_nodup ⟨v, hl⟩

theorem isBase32zChar_toB32z : ∀ v < 32, isBase32zChar (toB32z (UInt8.ofNat v)) = true :=
  fun v hv => by
    rcases Nat.eq_zero_or_pos v with rfl | h0
    · decide
    · simp [isBase32zChar, fromB32z_toB32z v hv, h0.ne']

/-- The table reads upper and lower case alike. -/
theorem fromB32z_asciiUpper (c : UInt8) : fromB32z (asciiUpper c) = fromB32z c := by
  rw [fromB32z, fromB32z, asciiLower_asciiUpper]

theorem isBase32zChar_asciiUpper (c : UInt8) : isBase32zChar (asciiUpper c) = isBase32zChar c := by
  have hc := toNat_lt c
  have hy : ((asciiUpper c).toNat == 'y'.toNat || (asciiUpper c).toNat == 'Y'.toNat) =
      (c.toNat == 'y'.toNat || c.toNat == 'Y'.toNat) := by
    simp only [asciiUpper, Char.reduceToNat]
    by_cases h : 97 ≤ c.toNat ∧ c.toNat ≤ 122
    · rw [if_pos h, toNat_ofNat]
      by_cases hy : c.toNat = 121
      · simp [hy]
      · have h1 : (c.toNat - 32) % 256 ≠ 121 := by omega
        have h2 : (c.toNat - 32) % 256 ≠ 89 := by omega
        have h3 : c.toNat ≠ 89 := by omega
        rw [beq_false_of_ne h1, beq_false_of_ne h2, beq_false_of_ne hy, beq_false_of_ne h3]
    · rw [if_neg h]
  rw [isBase32zChar, isBase32zChar, fromB32z_asciiUpper, Bool.or_assoc, Bool.or_assoc, hy]

/-! ### The decoder keeps `Regrouped` -/

theorem fromBase32zStep_emit {s : BitAcc} {c : UInt8} (h : s.bits ≥ 3) :
    fromBase32zStep s c = ⟨(s.acc * 2 ^ 5 + fromB32z c) % 2 ^ (s.bits - 3), s.bits - 3,
      s.out ++ [UInt8.ofNat ((s.acc * 2 ^ 5 + fromB32z c) / 2 ^ (s.bits - 3))]⟩ := by
  simp only [fromBase32zStep, if_pos h, and_shiftLeft_sub_one, Nat.shiftRight_eq_div_pow,
    shiftLeft_or_of_lt (show fromB32z c < 2 ^ 5 from fromB32z_lt c)]

theorem fromBase32zStep_absorb {s : BitAcc} {c : UInt8} (h : ¬s.bits ≥ 3) :
    fromBase32zStep s c = ⟨s.acc * 2 ^ 5 + fromB32z c, s.bits + 5, s.out⟩ := by
  simp only [fromBase32zStep, if_neg h,
    shiftLeft_or_of_lt (show fromB32z c < 2 ^ 5 from fromB32z_lt c)]

theorem fromBase32z_run (s : Bytes) :
    Regrouped 5 8 UInt8.toNat s.length (digitsValue 5 fromB32z s)
      (s.foldl fromBase32zStep ⟨0, 0, []⟩) ∧ (s.foldl fromBase32zStep ⟨0, 0, []⟩).bits < 8 := by
  induction s using List.reverseRecOn with
  | nil => exact ⟨Regrouped.init, by decide⟩
  | append_singleton s c ih =>
    obtain ⟨h, hlt⟩ := ih
    have habs := h.absorb (fromB32z_lt c)
    rw [List.foldl_append, List.foldl_cons, List.foldl_nil, List.length_append,
      List.length_singleton, digitsValue_append_singleton]
    by_cases h3 : (s.foldl fromBase32zStep ⟨0, 0, []⟩).bits ≥ 3
    · rw [fromBase32zStep_emit h3]
      refine ⟨habs.emit (by dsimp only; omega) (g := UInt8.ofNat) ?_, by dsimp only; omega⟩
      intro x hx; simp only [toNat_ofNat]; exact Nat.mod_eq_of_lt hx
    · rw [fromBase32zStep_absorb h3]; exact ⟨habs, by dsimp only; omega⟩

/-- **Decoded length.** `from_base32z` writes `⌊5d/8⌋` bytes for `d` characters. -/
theorem length_fromBase32z (s : Bytes) : (fromBase32z s).length = 5 * s.length / 8 := by
  obtain ⟨h, hlt⟩ := fromBase32z_run s
  have := h.length_eq
  rw [fromBase32z]; omega

/-! ### The encoder keeps `Regrouped` -/

/-- The encoder's invariant: the bytes read so far, regrouped into base32z characters,
with fewer than five bits pending. -/
def EncodeInv32 (xs : Bytes) (st : BitAcc) : Prop :=
  Regrouped 8 5 fromB32z xs.length (digitsValue 8 UInt8.toNat xs) st ∧ st.bits < 5 ∧
    ∀ c ∈ st.out, isBase32zChar c = true

theorem toBase32zStep_two {s : BitAcc} {c : UInt8} (h : s.bits + 3 ≥ 5) :
    toBase32zStep s c =
      ⟨(s.acc * 2 ^ 8 + c.toNat) % 2 ^ (s.bits + 3) % 2 ^ (s.bits + 3 - 5), s.bits + 3 - 5,
        s.out ++ [toB32z (UInt8.ofNat ((s.acc * 2 ^ 8 + c.toNat) / 2 ^ (s.bits + 3)))] ++
          [toB32z (UInt8.ofNat ((s.acc * 2 ^ 8 + c.toNat) % 2 ^ (s.bits + 3) /
            2 ^ (s.bits + 3 - 5)))]⟩ := by
  simp only [toBase32zStep, if_pos h, and_shiftLeft_sub_one, Nat.shiftRight_eq_div_pow,
    shiftLeft_or_of_lt (show c.toNat < 2 ^ 8 from toNat_lt c)]

theorem toBase32zStep_one {s : BitAcc} {c : UInt8} (h : ¬s.bits + 3 ≥ 5) :
    toBase32zStep s c = ⟨(s.acc * 2 ^ 8 + c.toNat) % 2 ^ (s.bits + 3), s.bits + 3,
      s.out ++ [toB32z (UInt8.ofNat ((s.acc * 2 ^ 8 + c.toNat) / 2 ^ (s.bits + 3)))]⟩ := by
  simp only [toBase32zStep, if_neg h, and_shiftLeft_sub_one, Nat.shiftRight_eq_div_pow,
    shiftLeft_or_of_lt (show c.toNat < 2 ^ 8 from toNat_lt c)]

theorem chars_append_toB32z {s : Bytes} (hs : ∀ c ∈ s, isBase32zChar c = true) {v : Nat}
    (hv : v < 2 ^ 5) : ∀ c ∈ s ++ [toB32z (UInt8.ofNat v)], isBase32zChar c = true := by
  intro c hc
  rcases List.mem_append.mp hc with hc | hc
  exacts [hs c hc, by rw [List.mem_singleton.mp hc]; exact isBase32zChar_toB32z v hv]

theorem toBase32z_run (xs : Bytes) : EncodeInv32 xs (xs.foldl toBase32zStep ⟨0, 0, []⟩) := by
  induction xs using List.reverseRecOn with
  | nil => exact ⟨Regrouped.init, by decide, by simp⟩
  | append_singleton xs c ih =>
    obtain ⟨h, hlt, hout⟩ := ih
    rw [List.foldl_append, List.foldl_cons, List.foldl_nil, EncodeInv32, List.length_append,
      List.length_singleton, digitsValue_append_singleton]
    have habs := h.absorb (UInt8.toNat_lt_size c)
    have hone := habs.emit (k := _ + 3) rfl (g := toB32z ∘ UInt8.ofNat) fromB32z_toB32z
    have hout' := chars_append_toB32z hout (habs.digit_lt rfl)
    by_cases h5 : (xs.foldl toBase32zStep ⟨0, 0, []⟩).bits + 3 ≥ 5
    · have hk : (xs.foldl toBase32zStep ⟨0, 0, []⟩).bits + 3 = _ - 5 + 5 :=
        (Nat.sub_add_cancel h5).symm
      rw [toBase32zStep_two h5]
      exact ⟨hone.emit hk fromB32z_toB32z, by dsimp only; omega,
        chars_append_toB32z hout' (hone.digit_lt hk)⟩
    · rw [toBase32zStep_one h5]
      exact ⟨hone, by dsimp only; omega, hout'⟩

/-- **The shape of `to_base32z`.** Its output is base32z characters carrying the
input's bits followed by `e < 5` zero bits. -/
theorem toBase32z_spec (xs : Bytes) : ∃ e, (∀ c ∈ toBase32z xs, isBase32zChar c = true) ∧
    digitsValue 5 fromB32z (toBase32z xs) = digitsValue 8 UInt8.toNat xs * 2 ^ e ∧
    5 * (toBase32z xs).length = 8 * xs.length + e ∧ e < 5 := by
  obtain ⟨⟨hv, hacc, hlen⟩, hlt, hout⟩ := toBase32z_run xs
  rw [toBase32z]
  generalize xs.foldl toBase32zStep ⟨0, 0, []⟩ = st at *
  by_cases h0 : st.bits > 0
  · have hpow : 2 ^ st.bits * 2 ^ (5 - st.bits) = 2 ^ 5 := by
      rw [← Nat.pow_add, Nat.add_sub_cancel' (by omega)]
    have hlast : st.acc * 2 ^ (5 - st.bits) < 2 ^ 5 := by
      rw [← hpow]; exact Nat.mul_lt_mul_of_pos_right hacc (Nat.two_pow_pos _)
    refine ⟨5 - st.bits, ?_⟩
    simp only [toBase32zFinish, if_pos h0, Nat.shiftLeft_eq]
    refine ⟨chars_append_toB32z hout hlast, ?_, ?_, by omega⟩
    · rw [digitsValue_append_singleton, fromB32z_toB32z _ hlast, hv, Nat.add_mul, Nat.mul_assoc,
        hpow]
    · simp only [List.length_append, List.length_singleton]; omega
  · have hb : st.bits = 0 := Nat.eq_zero_of_not_pos h0
    rw [hb, pow_zero] at hacc hv
    rw [hb, Nat.add_zero] at hlen
    rw [Nat.lt_one_iff.mp hacc, Nat.mul_one, Nat.add_zero] at hv
    simp only [toBase32zFinish, if_neg h0]
    exact ⟨0, hout, by rw [hv, pow_zero, Nat.mul_one], by rw [hlen, Nat.add_zero], by decide⟩

/-- **Round trip.** `from_base32z` reads back what `to_base32z` wrote. -/
theorem fromBase32z_toBase32z (xs : Bytes) : fromBase32z (toBase32z xs) = xs := by
  obtain ⟨e, -, hv, hn, he⟩ := toBase32z_spec xs
  obtain ⟨h, hlt⟩ := fromBase32z_run (toBase32z xs)
  exact h.readback hlt hv hn (by omega)

theorem isBase32z_toBase32z (xs : Bytes) : isBase32z (toBase32z xs) = true := by
  obtain ⟨e, hc, -⟩ := toBase32z_spec xs
  exact List.all_eq_true.mpr hc

theorem length_toBase32z (xs : Bytes) : (toBase32z xs).length = (8 * xs.length + 4) / 5 := by
  obtain ⟨e, -, -, hn, he⟩ := toBase32z_spec xs
  omega

/-- **Either case.** Decoding and checking base32z text do not look at the case of its
letters. -/
theorem fromBase32z_map_asciiUpper (s : Bytes) : fromBase32z (s.map asciiUpper) = fromBase32z s := by
  have hstep : (fun st c => fromBase32zStep st (asciiUpper c)) = fromBase32zStep := by
    funext st c; simp only [fromBase32zStep, fromB32z_asciiUpper]
  rw [fromBase32z, fromBase32z, List.foldl_map, hstep]

theorem isBase32z_map_asciiUpper (s : Bytes) : isBase32z (s.map asciiUpper) = isBase32z s := by
  simp only [isBase32z, List.all_map, Function.comp_def, isBase32zChar_asciiUpper]

end Bmq
