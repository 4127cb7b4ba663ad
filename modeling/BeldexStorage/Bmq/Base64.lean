import BeldexStorage.Bmq.Hex

/-! # bmq's base64 codec

`bmq/base64.h`.  `to_base64` shifts each byte into an accumulator and writes a
character whenever six bits are pending, then pads with `=` to a multiple of four
characters; `from_base64` skips `=`, shifts six bits per character in and writes a
byte whenever eight are pending; `is_base64` accepts base64 characters with one or two
trailing `=` when those pad the length to a multiple of four.

Both loops keep `Regrouped` (`toBase64_run`, `fromBase64_run`), from which the round
trips follow (`fromBase64_toBase64`, `fromBase64_unpadded`), and the exact number of
bytes a decode writes for any input (`length_fromBase64`).
-/
namespace Bmq

/-! ### The lookup tables -/

/-- `b64_lut.from_b64`: the 6-bit value of a base64 character, `0` for any other byte.
Besides `+` and `/` the table also reads the url-safe `-` and `_`. -/
def fromB64 (c : UInt8) : Nat :=
  let n := c.toNat
  if 'A'.toNat ≤ n ∧ n ≤ 'Z'.toNat then n - 'A'.toNat
  else if 'a'.toNat ≤ n ∧ n ≤ 'z'.toNat then n - 'a'.toNat + 26
  else if '0'.toNat ≤ n ∧ n ≤ '9'.toNat then n - '0'.toNat + 52
  else if n = '+'.toNat ∨ n = '-'.toNat then 62
  else if n = '/'.toNat ∨ n = '_'.toNat then 63
  else 0

/-- `b64_lut.to_b64`: the character of a 6-bit value (the table has 64 entries). -/
def toB64 (b : UInt8) : UInt8 :=
  let n := b.toNat
  if n < 26 then UInt8.ofNat ('A'.toNat + n)
  else if n < 52 then UInt8.ofNat ('a'.toNat + (n - 26))
  else if n < 62 then UInt8.ofNat ('0'.toNat + (n - 52))
  else if n = 62 then byte '+' else byte '/'

/-- The test of `is_base64`'s loop: a zero table entry is a character only for `'A'`. -/
def isBase64Char (c : UInt8) : Bool := fromB64 c != 0 || c.toNat == 'A'.toNat

/-! ### The codec -/

/-- One iteration of `to_base64`'s loop: eight bits in, one or two characters out. -/
def toBase64Step (s : BitAcc) (c : UInt8) : BitAcc :=
  let r := s.acc <<< 8 ||| c.toNat
  let bits := s.bits + 2
  let out := s.out ++ [toB64 (UInt8.ofNat (r >>> bits))]
  let r := r &&& ((1 <<< bits) - 1)
  if bits = 6 then ⟨0, 0, out ++ [toB64 (UInt8.ofNat r)]⟩ else ⟨r, bits, out⟩

/-- The end of `to_base64`, after its loop: the last character and the `=` padding. -/
def toBase64Finish (st : BitAcc) : Bytes :=
  if st.bits = 2 then st.out ++ [toB64 (UInt8.ofNat (st.acc <<< 4)), byte '=', byte '=']
  else if st.bits = 4 then st.out ++ [toB64 (UInt8.ofNat (st.acc <<< 2)), byte '=']
  else st.out

/-- `to_base64`. -/
def toBase64 (s : Bytes) : Bytes := toBase64Finish (s.foldl toBase64Step ⟨0, 0, []⟩)

/-- One iteration of `from_base64`'s loop: `=` is skipped, any other byte shifts in six
bits, and a byte is written once eight are pending. -/
def fromBase64Step (s : BitAcc) (c : UInt8) : BitAcc :=
  if c = byte '=' then s
  else
    let curr := s.acc <<< 6 ||| fromB64 c
    if s.bits = 0 then ⟨curr, 6, s.out⟩
    else
      let bits := s.bits - 2
      ⟨curr &&& ((1 <<< bits) - 1), bits, s.out ++ [UInt8.ofNat (curr >>> bits)]⟩

/-- `from_base64`. -/
def fromBase64 (s : Bytes) : Bytes := (s.foldl fromBase64Step ⟨0, 0, []⟩).out

/-- `is_base64`: one or two trailing `=` are skipped when the length is a nonzero
multiple of four; every other byte must be a base64 character. -/
def isBase64 (s : Bytes) : Bool :=
  let body :=
    if s ≠ [] ∧ s.length % 4 = 0 then
      if s.getLast? = some (byte '=') then
        if s.dropLast.getLast? = some (byte '=') then s.dropLast.dropLast else s.dropLast
      else s
    else s
  body.all isBase64Char

/-! ### The tables agree -/

theorem fromB64_lt (c : UInt8) : fromB64 c < 64 := by
  simp only [fromB64, Char.reduceToNat]
  exact ite_lt_of_imp (fun _ => by omega) fun _ => ite_lt_of_imp (fun _ => by omega) fun _ =>
    ite_lt_of_imp (fun _ => by omega) fun _ => ite_lt_of_imp (fun _ => by decide) fun _ =>
      ite_lt_of_imp (fun _ => by decide) fun _ => by decide

theorem fromB64_toB64 : ∀ v < 64, fromB64 (toB64 (UInt8.ofNat v)) = v := by decide

theorem isBase64Char_toB64 : ∀ v < 64, isBase64Char (toB64 (UInt8.ofNat v)) = true := by decide

theorem isBase64Char_pad : isBase64Char (byte '=') = false := by decide

theorem ne_pad_of_isBase64Char {c : UInt8} (h : isBase64Char c = true) : c ≠ byte '=' := by
  rintro rfl; simp [isBase64Char_pad] at h

/-! ### The decoder keeps `Regrouped` -/

/-- The input digits the decoder reads: everything but `=`. -/
def b64Digits (s : Bytes) : Bytes := s.filter (· != byte '=')

/-- The decoder's invariant: the digits read so far, regrouped into bytes, with an
even number of bits below eight pending. -/
def DecodeInv (s : Bytes) (st : BitAcc) : Prop :=
  Regrouped 6 8 UInt8.toNat (b64Digits s).length (digitsValue 6 fromB64 (b64Digits s)) st ∧
    st.bits < 8 ∧ st.bits % 2 = 0

theorem fromBase64Step_pad (s : BitAcc) : fromBase64Step s (byte '=') = s := if_pos rfl

theorem fromBase64Step_absorb {s : BitAcc} {c : UInt8} (hc : c ≠ byte '=') (h0 : s.bits = 0) :
    fromBase64Step s c = ⟨s.acc * 2 ^ 6 + fromB64 c, s.bits + 6, s.out⟩ := by
  simp only [fromBase64Step, if_neg hc, h0, Nat.zero_add, ite_true,
    shiftLeft_or_of_lt (show fromB64 c < 2 ^ 6 from fromB64_lt c)]

theorem fromBase64Step_emit {s : BitAcc} {c : UInt8} (hc : c ≠ byte '=') (h0 : s.bits ≠ 0) :
    fromBase64Step s c = ⟨(s.acc * 2 ^ 6 + fromB64 c) % 2 ^ (s.bits - 2), s.bits - 2,
      s.out ++ [UInt8.ofNat ((s.acc * 2 ^ 6 + fromB64 c) / 2 ^ (s.bits - 2))]⟩ := by
  simp only [fromBase64Step, if_neg hc, if_neg h0, and_shiftLeft_sub_one,
    Nat.shiftRight_eq_div_pow, shiftLeft_or_of_lt (show fromB64 c < 2 ^ 6 from fromB64_lt c)]

theorem fromBase64_run (s : Bytes) : DecodeInv s (s.foldl fromBase64Step ⟨0, 0, []⟩) := by
  induction s using List.reverseRecOn with
  | nil => exact ⟨Regrouped.init, by decide, rfl⟩
  | append_singleton s c ih =>
    obtain ⟨h, hlt, hev⟩ := ih
    rw [List.foldl_append, List.foldl_cons, List.foldl_nil]
    by_cases hc : c = byte '='
    · subst hc
      rw [fromBase64Step_pad]
      simpa [DecodeInv, b64Digits] using ⟨h, hlt, hev⟩
    · have hd : b64Digits (s ++ [c]) = b64Digits s ++ [c] := by simp [b64Digits, hc]
      have habs := h.absorb (fromB64_lt c)
      rw [DecodeInv, hd, List.length_append, List.length_singleton, digitsValue_append_singleton]
      by_cases h0 : (s.foldl fromBase64Step ⟨0, 0, []⟩).bits = 0
      · rw [fromBase64Step_absorb hc h0]; exact ⟨habs, by dsimp only; omega, by dsimp only; omega⟩
      · rw [fromBase64Step_emit hc h0]
        refine ⟨habs.emit (by dsimp only; omega) (g := UInt8.ofNat) ?_, by dsimp only; omega,
          by dsimp only; omega⟩
        intro x hx; simp only [toNat_ofNat]; exact Nat.mod_eq_of_lt hx

/-! ### The encoder keeps `Regrouped` -/

/-- The encoder's invariant: the bytes read so far, regrouped into base64 characters,
with 0, 2 or 4 bits pending. -/
def EncodeInv (xs : Bytes) (st : BitAcc) : Prop :=
  Regrouped 8 6 fromB64 xs.length (digitsValue 8 UInt8.toNat xs) st ∧
    st.bits < 6 ∧ st.bits % 2 = 0 ∧ ∀ c ∈ st.out, isBase64Char c = true

theorem toBase64Step_one {s : BitAcc} {c : UInt8} (h : s.bits + 2 ≠ 6) :
    toBase64Step s c = ⟨(s.acc * 2 ^ 8 + c.toNat) % 2 ^ (s.bits + 2), s.bits + 2,
      s.out ++ [toB64 (UInt8.ofNat ((s.acc * 2 ^ 8 + c.toNat) / 2 ^ (s.bits + 2)))]⟩ := by
  simp only [toBase64Step, if_neg h, and_shiftLeft_sub_one, Nat.shiftRight_eq_div_pow,
    shiftLeft_or_of_lt (show c.toNat < 2 ^ 8 from toNat_lt c)]

theorem toBase64Step_two {s : BitAcc} {c : UInt8} (h : s.bits + 2 = 6) :
    toBase64Step s c = ⟨(s.acc * 2 ^ 8 + c.toNat) % 2 ^ (s.bits + 2) % 2 ^ 0, 0,
      s.out ++ [toB64 (UInt8.ofNat ((s.acc * 2 ^ 8 + c.toNat) / 2 ^ (s.bits + 2)))] ++
        [toB64 (UInt8.ofNat ((s.acc * 2 ^ 8 + c.toNat) % 2 ^ (s.bits + 2) / 2 ^ 0))]⟩ := by
  simp only [toBase64Step, if_pos h, and_shiftLeft_sub_one, Nat.shiftRight_eq_div_pow,
    shiftLeft_or_of_lt (show c.toNat < 2 ^ 8 from toNat_lt c), pow_zero, Nat.mod_one,
    Nat.div_one, List.append_assoc, List.singleton_append]

theorem toBase64_run (xs : Bytes) : EncodeInv xs (xs.foldl toBase64Step ⟨0, 0, []⟩) := by
  induction xs using List.reverseRecOn with
  | nil => exact ⟨Regrouped.init, by decide, rfl, by simp⟩
  | append_singleton xs c ih =>
    obtain ⟨h, hlt, hev, hout⟩ := ih
    rw [List.foldl_append, List.foldl_cons, List.foldl_nil, EncodeInv, List.length_append,
      List.length_singleton, digitsValue_append_singleton]
    have habs := h.absorb (UInt8.toNat_lt_size c)
    have hone := habs.emit (k := _ + 2) rfl (g := toB64 ∘ UInt8.ofNat) fromB64_toB64
    have hchars : ∀ s : Bytes, (∀ c ∈ s, isBase64Char c = true) → ∀ v < 2 ^ 6,
        ∀ c ∈ s ++ [toB64 (UInt8.ofNat v)], isBase64Char c = true := by
      intro s hs v hv c hc
      rcases List.mem_append.mp hc with hc | hc
      exacts [hs c hc, by rw [List.mem_singleton.mp hc]; exact isBase64Char_toB64 v hv]
    have hout' := hchars _ hout _ (habs.digit_lt rfl)
    by_cases h6 : (xs.foldl toBase64Step ⟨0, 0, []⟩).bits + 2 = 6
    · have h0 : (xs.foldl toBase64Step ⟨0, 0, []⟩).bits + 2 = 0 + 6 := h6
      rw [toBase64Step_two h6]
      exact ⟨hone.emit h0 fromB64_toB64, by dsimp only; omega, rfl,
        hchars _ hout' _ (hone.digit_lt h0)⟩
    · rw [toBase64Step_one h6]
      exact ⟨hone, by dsimp only; omega, by dsimp only; omega, hout'⟩

/-- With `2` or `4` bits pending, `to_base64` ends with one character holding them
followed by `k` zero bits, then `k / 2` padding characters. -/
theorem toBase64Finish_pad {st : BitAcc} {k : Nat} (hk : st.bits + k = 6)
    (h : st.bits = 2 ∨ st.bits = 4) :
    toBase64Finish st =
      st.out ++ [toB64 (UInt8.ofNat (st.acc * 2 ^ k))] ++ List.replicate (k / 2) (byte '=') := by
  rcases h with h | h
  · obtain rfl : k = 4 := by omega
    simp [toBase64Finish, h, Nat.shiftLeft_eq]
  · obtain rfl : k = 2 := by omega
    simp [toBase64Finish, h, Nat.shiftLeft_eq]

/-- **The shape of `to_base64`.** Its output is base64 characters `cs` carrying the
input's bits followed by `e` zero bits, then `e / 2` padding characters. -/
theorem toBase64_spec (xs : Bytes) :
    ∃ cs e, toBase64 xs = cs ++ List.replicate (e / 2) (byte '=') ∧
    (∀ c ∈ cs, isBase64Char c = true) ∧
    digitsValue 6 fromB64 cs = digitsValue 8 UInt8.toNat xs * 2 ^ e ∧
    6 * cs.length = 8 * xs.length + e ∧ e < 6 ∧ e % 2 = 0 := by
  obtain ⟨⟨hv, hacc, hlen⟩, hlt, hev, hout⟩ := toBase64_run xs
  rw [toBase64]
  generalize xs.foldl toBase64Step ⟨0, 0, []⟩ = st at *
  by_cases h0 : st.bits = 0
  · rw [h0, pow_zero] at hacc hv
    rw [h0, Nat.add_zero] at hlen
    rw [Nat.lt_one_iff.mp hacc, Nat.mul_one, Nat.add_zero] at hv
    exact ⟨st.out, 0, by simp [toBase64Finish, h0], hout, by rw [hv, pow_zero, Nat.mul_one],
      by rw [hlen, Nat.add_zero], by decide, rfl⟩
  obtain ⟨k, hk⟩ : ∃ k, st.bits + k = 6 := ⟨6 - st.bits, by omega⟩
  have hd : st.acc * 2 ^ k < 2 ^ 6 := by
    rw [← hk, pow_add]; exact Nat.mul_lt_mul_of_pos_right hacc (Nat.two_pow_pos k)
  refine ⟨st.out ++ [toB64 (UInt8.ofNat (st.acc * 2 ^ k))], k,
    toBase64Finish_pad hk (by omega), fun c hc => ?_, ?_, ?_, by omega, by omega⟩
  · rcases List.mem_append.mp hc with hc | hc
    exacts [hout c hc, by rw [List.mem_singleton.mp hc]; exact isBase64Char_toB64 _ hd]
  · rw [digitsValue_append_singleton, fromB64_toB64 _ hd, hv, ← hk, pow_add]; ring
  · simp only [List.length_append, List.length_singleton]; omega

/-! ### Round trips -/

theorem b64Digits_of_chars {cs : Bytes} (h : ∀ c ∈ cs, isBase64Char c = true) (j : Nat) :
    b64Digits (cs ++ List.replicate j (byte '=')) = cs := by
  rw [b64Digits, List.filter_append, List.filter_replicate_of_neg (by simp),
    List.filter_eq_self.mpr (fun c hc => by simpa using ne_pad_of_isBase64Char (h c hc)),
    List.append_nil]

/-- A decoder run over the characters an encoder run wrote, with any padding. -/
theorem fromBase64_of_spec {xs cs : Bytes} {e : Nat} (hc : ∀ c ∈ cs, isBase64Char c = true)
    (hv : digitsValue 6 fromB64 cs = digitsValue 8 UInt8.toNat xs * 2 ^ e)
    (hn : 6 * cs.length = 8 * xs.length + e) (he : e < 6) (j : Nat) :
    fromBase64 (cs ++ List.replicate j (byte '=')) = xs := by
  obtain ⟨h, hlt, -⟩ := fromBase64_run (cs ++ List.replicate j (byte '='))
  rw [b64Digits_of_chars hc] at h
  exact h.readback hlt hv hn (by omega)

/-- **Round trip.** `from_base64` reads back what `to_base64` wrote. -/
theorem fromBase64_toBase64 (xs : Bytes) : fromBase64 (toBase64 xs) = xs := by
  obtain ⟨cs, e, heq, hc, hv, hn, he, -⟩ := toBase64_spec xs
  rw [heq]; exact fromBase64_of_spec hc hv hn he _

/-- **Round trip without padding.** The same holds once the `=` are dropped. -/
theorem fromBase64_unpadded (xs : Bytes) : fromBase64 (b64Digits (toBase64 xs)) = xs := by
  obtain ⟨cs, e, heq, hc, hv, hn, he, -⟩ := toBase64_spec xs
  rw [heq, b64Digits_of_chars hc]
  simpa using fromBase64_of_spec hc hv hn he 0

theorem getLast?_ne_pad {cs : Bytes} (h : ∀ c ∈ cs, isBase64Char c = true) :
    cs.getLast? ≠ some (byte '=') := fun he =>
  ne_pad_of_isBase64Char (h _ (List.mem_of_getLast?_eq_some he)) rfl

/-- `is_base64` accepts base64 characters followed by at most two `=` that pad them to
a multiple of four. -/
theorem isBase64_of_chars {cs : Bytes} (h : ∀ c ∈ cs, isBase64Char c = true) {j : Nat}
    (hj : j ≤ 2) (hlen : 0 < j → (cs.length + j) % 4 = 0) :
    isBase64 (cs ++ List.replicate j (byte '=')) = true := by
  have hall : cs.all isBase64Char = true := List.all_eq_true.mpr h
  have hlast := getLast?_ne_pad h
  rcases (by omega : j = 0 ∨ j = 1 ∨ j = 2) with rfl | rfl | rfl
  · simp only [isBase64, List.replicate, List.append_nil, hlast, if_false, ite_self, hall]
  · simp [isBase64, hlen (by decide), hlast, hall]
  · simp [isBase64, hlen (by decide), hall]

/-- `is_base64` accepts what `to_base64` writes. -/
theorem isBase64_toBase64 (xs : Bytes) : isBase64 (toBase64 xs) = true := by
  obtain ⟨cs, e, heq, hc, -, hn, he, hev⟩ := toBase64_spec xs
  rw [heq]; exact isBase64_of_chars hc (by omega) (fun _ => by omega)

/-- `is_base64` accepts it without its padding too. -/
theorem isBase64_unpadded (xs : Bytes) : isBase64 (b64Digits (toBase64 xs)) = true := by
  obtain ⟨cs, e, heq, hc, -, -, -, -⟩ := toBase64_spec xs
  rw [heq, b64Digits_of_chars hc]
  simpa using isBase64_of_chars hc (j := 0) (by decide) (by omega)

/-- **Decoded length.** Whatever its input, `from_base64` writes `⌊6d/8⌋` bytes for
the `d` characters other than `=`. -/
theorem length_fromBase64 (s : Bytes) : (fromBase64 s).length = 6 * (b64Digits s).length / 8 := by
  obtain ⟨h, hlt, -⟩ := fromBase64_run s
  have := h.length_eq
  rw [fromBase64]; omega

end Bmq
