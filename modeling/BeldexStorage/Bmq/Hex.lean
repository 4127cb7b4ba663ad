import BeldexStorage.Bmq.Regroup

/-! # bmq's hex codec

`bmq/hex.h` (bmq is the repository's fork of the oxenmq header library; it is not
under `src/`, so its functions are written here from that header).  The codec works a
byte at a time: `to_hex` writes two lower-case digits per byte, `from_hex` reads
digits in pairs, `is_hex` accepts an even number of digits of either case.

`fromHex_toHex` is the round trip; `fromHex_map_asciiUpper` and
`isHex_map_asciiUpper` say that the case of the digits is never looked at.
-/
namespace Bmq

/-! ### The lookup tables -/

/-- `hex_lut.from_hex`: the value of a hex digit of either case, `0` for any other
byte (the table is zero-initialised and only the digits are filled in). -/
def fromHexDigit (c : UInt8) : Nat :=
  let n := c.toNat
  if '0'.toNat ≤ n ∧ n ≤ '9'.toNat then n - '0'.toNat
  else if 'a'.toNat ≤ n ∧ n ≤ 'f'.toNat then n - 'a'.toNat + 10
  else if 'A'.toNat ≤ n ∧ n ≤ 'F'.toNat then n - 'A'.toNat + 10
  else 0

/-- `hex_lut.to_hex`: the lower-case digit of a value below 16. -/
def toHexDigit (b : Nat) : UInt8 :=
  if b < 10 then UInt8.ofNat ('0'.toNat + b) else UInt8.ofNat ('a'.toNat + (b - 10))

/-- `is_hex_digit`: a zero table entry is a digit only for `'0'` itself. -/
def isHexDigit (c : UInt8) : Bool := fromHexDigit c != 0 || c.toNat == '0'.toNat

/-! ### The codec -/

/-- `to_hex`: two lower-case digits per byte, high nibble first. -/
def toHex : Bytes → Bytes
  | [] => []
  | c :: rest => toHexDigit (c.toNat >>> 4) :: toHexDigit (c.toNat &&& 0x0f) :: toHex rest

/-- `from_hex_pair`: the byte of a pair of hex digits. -/
def fromHexPair (a b : UInt8) : UInt8 := UInt8.ofNat (fromHexDigit a <<< 4 ||| fromHexDigit b)

/-- `from_hex`: one byte per pair of digits.  The source requires `is_hex`, so an even
length; a trailing odd digit (which the source would read past) is dropped here. -/
def fromHex : Bytes → Bytes
  | a :: b :: rest => fromHexPair a b :: fromHex rest
  | _ => []

/-- `is_hex`: an even number of hex digits. -/
def isHex (s : Bytes) : Bool := s.length % 2 == 0 && s.all isHexDigit

/-- Upper-casing of ASCII letters, for the upper-case spelling of a hex string. -/
def asciiUpper (c : UInt8) : UInt8 :=
  if 'a'.toNat ≤ c.toNat ∧ c.toNat ≤ 'z'.toNat then UInt8.ofNat (c.toNat - 32) else c

/-- Lower-casing of ASCII letters. -/
def asciiLower (c : UInt8) : UInt8 :=
  if 'A'.toNat ≤ c.toNat ∧ c.toNat ≤ 'Z'.toNat then UInt8.ofNat (c.toNat + 32) else c

/-! ### Facts about bytes -/

@[simp] theorem toNat_ofNat (n : Nat) : (UInt8.ofNat n).toNat = n % 256 := rfl

@[simp] theorem ofNat_toNat (c : UInt8) : UInt8.ofNat c.toNat = c :=
  UInt8.toNat.inj (by rw [toNat_ofNat]; exact Nat.mod_eq_of_lt c.toNat_lt_size)

theorem toNat_lt (c : UInt8) : c.toNat < 256 := c.toNat_lt_size

/-! ### The digit tables agree -/

theorem fromHexDigit_toHexDigit : ∀ v < 16, fromHexDigit (toHexDigit v) = v := by decide

theorem isHexDigit_toHexDigit : ∀ v < 16, isHexDigit (toHexDigit v) = true := by decide

theorem fromHexDigit_lt (c : UInt8) : fromHexDigit c < 16 := by
  simp only [fromHexDigit, Char.reduceToNat]
  exact ite_lt_of_imp (fun _ => by omega) fun _ =>
    ite_lt_of_imp (fun _ => by omega) fun _ => ite_lt_of_imp (fun _ => by omega) fun _ => by decide

theorem fromHexDigit_asciiUpper (c : UInt8) : fromHexDigit (asciiUpper c) = fromHexDigit c := by
  have := toNat_lt c
  unfold asciiUpper
  split_ifs with h
  · simp only [fromHexDigit, toNat_ofNat, Nat.mod_eq_of_lt (by omega : c.toNat - 32 < 256),
      Char.reduceToNat] at h ⊢
    by_cases hf : 97 ≤ c.toNat ∧ c.toNat ≤ 102
    · rw [if_neg (by omega), if_neg (by omega), if_pos (by omega), if_neg (by omega), if_pos hf]
      omega
    · rw [if_neg (by omega), if_neg (by omega), if_neg (by omega), if_neg (by omega), if_neg hf,
        if_neg (by omega)]
  · rfl

theorem isHexDigit_asciiUpper (c : UInt8) : isHexDigit (asciiUpper c) = isHexDigit c := by
  have := toNat_lt c
  rw [isHexDigit, isHexDigit, fromHexDigit_asciiUpper]
  congr 1
  unfold asciiUpper
  split_ifs
  · simp only [toNat_ofNat, Nat.mod_eq_of_lt (by omega : c.toNat - 32 < 256)]
    simp only [Char.reduceToNat] at *
    rw [beq_false_of_ne (by omega), beq_false_of_ne (by omega)]
  · rfl

/-! ### The round trip -/

theorem fromHexPair_toHexDigit (c : UInt8) :
    fromHexPair (toHexDigit (c.toNat >>> 4)) (toHexDigit (c.toNat &&& 0x0f)) = c := by
  have hc := toNat_lt c
  have hlo : c.toNat &&& 0x0f = c.toNat % 16 := Nat.and_pow_two_sub_one_eq_mod _ 4
  rw [fromHexPair, hlo, Nat.shiftRight_eq_div_pow,
    fromHexDigit_toHexDigit _ (by omega), fromHexDigit_toHexDigit _ (Nat.mod_lt _ (by omega)),
    shiftLeft_or_of_lt (show c.toNat % 16 < 2 ^ 4 by omega)]
  conv_rhs => rw [← ofNat_toNat c]
  congr 1
  omega

@[simp] theorem length_toHex (s : Bytes) : (toHex s).length = 2 * s.length := by
  induction s with
  | nil => rfl
  | cons c s ih => simp only [toHex, List.length_cons, ih]; omega

theorem fromHex_toHex (s : Bytes) : fromHex (toHex s) = s := by
  induction s with
  | nil => rfl
  | cons c s ih => rw [toHex, fromHex, fromHexPair_toHexDigit, ih]

theorem isHex_toHex (s : Bytes) : isHex (toHex s) = true := by
  simp only [isHex, length_toHex, Nat.mul_mod_right, beq_self_eq_true, Bool.true_and,
    List.all_eq_true]
  induction s with
  | nil => simp [toHex]
  | cons c s ih =>
    have h4 : c.toNat >>> 4 < 16 := by rw [Nat.shiftRight_eq_div_pow]; have := toNat_lt c; omega
    have h0 : c.toNat &&& 0x0f < 16 := Nat.and_lt_two_pow _ (by decide : 0x0f < 2 ^ 4)
    simp only [toHex, List.mem_cons]
    rintro x (rfl | rfl | hx)
    exacts [isHexDigit_toHexDigit _ h4, isHexDigit_toHexDigit _ h0, ih x hx]

theorem length_fromHex (s : Bytes) : (fromHex s).length = s.length / 2 := by
  induction s using fromHex.induct with
  | case1 a b rest ih => simp only [fromHex, List.length_cons, ih]; omega
  | case2 s h =>
    match s, h with
    | [], _ => rfl
    | [_], _ => simp [fromHex]
    | _ :: _ :: _, h => exact absurd rfl (h _ _ _)

theorem fromHex_map_asciiUpper (s : Bytes) : fromHex (s.map asciiUpper) = fromHex s := by
  induction s using fromHex.induct with
  | case1 a b rest ih =>
    simp only [List.map_cons, fromHex, fromHexPair, fromHexDigit_asciiUpper, ih]
  | case2 s h =>
    match s, h with
    | [], _ => rfl
    | [_], _ => rfl
    | _ :: _ :: _, h => exact absurd rfl (h _ _ _)

theorem isHex_map_asciiUpper (s : Bytes) : isHex (s.map asciiUpper) = isHex s := by
  simp only [isHex, List.length_map, List.all_map, Function.comp_def, isHexDigit_asciiUpper]

/-! ### Reading hex text and writing it back -/

theorem toHexDigit_fromHexDigit {c : UInt8} (h : isHexDigit c = true) :
    toHexDigit (fromHexDigit c) = asciiLower c := by
  have hc := toNat_lt c
  apply UInt8.toNat.inj
  simp only [isHexDigit, bne_iff_ne, ne_eq, Bool.or_eq_true, beq_iff_eq] at h
  simp only [fromHexDigit, toHexDigit, asciiLower, Char.reduceToNat] at h ⊢
  by_cases h1 : 48 ≤ c.toNat ∧ c.toNat ≤ 57
  · rw [if_pos h1, if_pos (by omega), if_neg (by omega), toNat_ofNat]; omega
  by_cases h2 : 97 ≤ c.toNat ∧ c.toNat ≤ 102
  · rw [if_neg h1, if_pos h2, if_neg (by omega), if_neg (by omega), toNat_ofNat]; omega
  by_cases h3 : 65 ≤ c.toNat ∧ c.toNat ≤ 70
  · rw [if_neg h1, if_neg h2, if_pos h3, if_neg (by omega), if_pos (by omega), toNat_ofNat,
      toNat_ofNat]; omega
  · rw [if_neg h1, if_neg h2, if_neg h3] at h; omega

theorem isHex_cons_cons (a b : UInt8) (rest : Bytes) :
    isHex (a :: b :: rest) = (isHexDigit a && isHexDigit b && isHex rest) := by
  have h2 : (rest.length + 1 + 1) % 2 = rest.length % 2 := by omega
  simp only [isHex, List.length_cons, List.all_cons, h2]
  cases isHexDigit a <;> cases isHexDigit b <;> simp

theorem toHexDigit_fromHexPair {a b : UInt8} (ha : isHexDigit a = true)
    (hb : isHexDigit b = true) :
    toHexDigit ((fromHexPair a b).toNat >>> 4) = asciiLower a ∧
      toHexDigit ((fromHexPair a b).toNat &&& 0x0f) = asciiLower b := by
  have hda := fromHexDigit_lt a
  have hdb := fromHexDigit_lt b
  have hx : (fromHexPair a b).toNat = fromHexDigit a * 16 + fromHexDigit b := by
    rw [fromHexPair, toNat_ofNat, shiftLeft_or_of_lt (show fromHexDigit b < 2 ^ 4 by omega)]
    omega
  rw [hx, Nat.shiftRight_eq_div_pow, show (0x0f : Nat) = 2 ^ 4 - 1 from rfl,
    Nat.and_pow_two_sub_one_eq_mod, ← toHexDigit_fromHexDigit ha, ← toHexDigit_fromHexDigit hb]
  constructor <;> congr 1 <;> omega

/-- **Hex text comes back in lower case.** `to_hex` writes back what `from_hex` read from
any text `is_hex` accepts, with its letters in lower case. -/
theorem toHex_fromHex (s : Bytes) (h : isHex s = true) : toHex (fromHex s) = s.map asciiLower := by
  induction s using fromHex.induct with
  | case1 a b rest ih =>
    simp only [isHex_cons_cons, Bool.and_eq_true] at h
    obtain ⟨hhi, hlo⟩ := toHexDigit_fromHexPair h.1.1 h.1.2
    rw [fromHex, toHex, hhi, hlo, ih h.2]
    rfl
  | case2 s hs =>
    match s, hs with
    | [], _ => rfl
    | [_], _ => simp [isHex] at h
    | _ :: _ :: _, hs => exact absurd rfl (hs _ _ _)

theorem asciiLower_asciiUpper (c : UInt8) : asciiLower (asciiUpper c) = asciiLower c := by
  have hc := toNat_lt c
  apply UInt8.toNat.inj
  simp only [asciiLower, asciiUpper, Char.reduceToNat]
  by_cases h1 : 97 ≤ c.toNat ∧ c.toNat ≤ 122
  · rw [if_pos h1, toNat_ofNat, if_pos (by omega), if_neg (by omega), toNat_ofNat]; omega
  · rw [if_neg h1]

end Bmq
