import BeldexStorage.Bmq.Base64
import BeldexStorage.Bmq.Base32z

/-! # Keys and their encodings

`beldexd_key.cpp` (`src/unnamed/part_000`).  Every key type is a 32-byte array
(`Key32`), wrapped in a type of its own so that a legacy key, an Ed25519 key and an
X25519 key cannot be mixed up.  `parse_pubkey<T>` picks an encoding from the input's
length and alphabet (`pubkeyEncoding`) and writes what that encoding decodes to over
the zero key (`parsePubkey`).

Two results describe it.  Every encoding of a key that the codebase writes is read
back to the key, without reaching the invalid branch (`parsePubkey_encodings`).
Every accepted input decodes to exactly 32 bytes, except a 44-character base64 input
ending in `==`, which decodes to 31 and leaves the last byte of the zero key in the
result (`decodePubkey_length`, `parsePubkey_double_padded`).
-/
namespace Beldex
open Bmq

/-! ### Key arrays -/

/-- The 32-byte array under each key type of `beldexd_key.h`. -/
structure Key32 where
  bytes : Bytes
  length_eq : bytes.length = 32
  deriving DecidableEq

/-- The value-initialised array `T pk{}`: all zero. -/
def Key32.zero : Key32 := ⟨List.replicate 32 0, List.length_replicate 32 0⟩

/-- Writing `out` through `pk.begin()`: the written bytes replace the first bytes of
the array.  The array ends after 32 bytes (`decodePubkey_length` shows that no
accepted input writes past it). -/
def Key32.write (k : Key32) (out : Bytes) : Key32 :=
  ⟨(out ++ k.bytes.drop out.length).take 32, by
    rw [List.length_take, List.length_append, List.length_drop, k.length_eq]; omega⟩

theorem Key32.write_of_length {k : Key32} {out : Bytes} (h : out.length = 32) :
    (k.write out).bytes = out := by
  simp [Key32.write, k.length_eq, h]

theorem Key32.ext {k k' : Key32} (h : k.bytes = k'.bytes) : k = k' := by
  cases k; cases k'; cases h; rfl

theorem Key32.zero_write_bytes (k : Key32) : Key32.zero.write k.bytes = k :=
  Key32.ext (Key32.write_of_length k.length_eq)

/-- `legacy_pubkey`. -/
structure LegacyPubkey where
  key : Key32
  deriving DecidableEq

/-- `ed25519_pubkey`. -/
structure Ed25519Pubkey where
  key : Key32
  deriving DecidableEq

/-- `x25519_pubkey`. -/
structure X25519Pubkey where
  key : Key32
  deriving DecidableEq

/-- `x25519_seckey`. -/
structure X25519Seckey where
  key : Key32
  deriving DecidableEq

@[simp] theorem ok_bind {ε α β : Type} (x : α) (f : α → Except ε β) :
    (Except.ok x >>= f) = f x := rfl

@[simp] theorem error_bind {ε α β : Type} (e : ε) (f : α → Except ε β) :
    (Except.error e >>= f) = Except.error e := rfl

/-! ### `detail` -/

namespace Detail

/-- `detail::load_from_hex`: the `length` bytes it writes into `buffer`, or the text of
the exception it throws. -/
def loadFromHex (length : Nat) (hex : Bytes) : Except String Bytes :=
  if !isHex hex then .error "Hex key data is invalid: data is not hex"
  else if hex.length ≠ 2 * length then
    .error ("Hex key data is invalid: expected " ++ toString length ++
      " hex digits, received " ++ toString hex.length)
  else .ok (fromHex hex)

/-- `detail::load_from_bytes`: the `length` bytes it copies into `buffer`, or the text of
the exception it throws. -/
def loadFromBytes (length : Nat) (bytes : Bytes) : Except String Bytes :=
  if bytes.length ≠ length then
    .error ("Key data is invalid: expected " ++ toString length ++
      " bytes, received " ++ toString bytes.length)
  else .ok bytes

/-- `detail::to_hex`. -/
def toHex (buffer : Bytes) (length : Nat) : Bytes := Bmq.toHex (buffer.take length)

end Detail

/-- `legacy_pubkey::from_hex` and its `ed25519` and `x25519` twins, templates of
`beldexd_key.h` (not under src/) that call `load_from_hex` on a zeroed key. -/
def Key32.fromHex (hex : Bytes) : Except String Key32 :=
  (Detail.loadFromHex 32 hex).map Key32.zero.write

/-- `from_hex` accepts exactly the texts of 64 hex digits, and reads them with
`bmq::from_hex`. -/
theorem Key32.fromHex_eq_ok {hex : Bytes} {k : Key32} :
    Key32.fromHex hex = .ok k ↔ isHex hex = true ∧ hex.length = 64 ∧ k.bytes = Bmq.fromHex hex := by
  unfold Key32.fromHex Detail.loadFromHex
  by_cases hx : isHex hex = true
  · by_cases hl : hex.length = 64
    · have hw : (Key32.zero.write (Bmq.fromHex hex)).bytes = Bmq.fromHex hex :=
        Key32.write_of_length (by simp [length_fromHex, hl])
      simp only [hx, hl, Bool.not_true, Bool.false_eq_true, ne_eq, not_true_eq_false, if_false,
        Except.map, Except.ok.injEq, true_and]
      exact ⟨fun h => h ▸ hw, fun h => Key32.ext (hw.trans h.symm)⟩
    · simp [hx, hl, Except.map]
  · simp [hx, Except.map]

theorem Key32.exists_fromHex_eq_ok {hex : Bytes} (hx : isHex hex = true) (hl : hex.length = 64) :
    ∃ k, Key32.fromHex hex = .ok k :=
  ⟨⟨Bmq.fromHex hex, by simp [length_fromHex, hl]⟩, Key32.fromHex_eq_ok.mpr ⟨hx, hl, rfl⟩⟩

/-- `key.hex()`, as the key types of `beldexd_key.h` define it. -/
def Key32.hex (k : Key32) : Bytes := Detail.toHex k.bytes 32

/-- `ed25519_pubkey::mnode_address`: the key in base32z, then `.mnode`. -/
def Ed25519Pubkey.mnodeAddress (k : Ed25519Pubkey) : Bytes :=
  toBase32z k.key.bytes ++ bytesOf ".mnode"

/-! ### `parse_pubkey` -/

/-- The branches of `parse_pubkey`'s `if` chain. -/
inductive PubkeyEncoding
  | bytes
  | hex
  | base64
  | base32z
  | invalid
  deriving DecidableEq

/-- The branch `parse_pubkey` takes: length and alphabet, tested in the source's order. -/
def pubkeyEncoding (s : Bytes) : PubkeyEncoding :=
  if s.length = 32 then .bytes
  else if s.length = 64 ∧ isHex s then .hex
  else if (s.length = 43 ∨ (s.length = 44 ∧ s.getLast? = some (byte '='))) ∧ isBase64 s then
    .base64
  else if s.length = 52 ∧ isBase32z s then .base32z
  else .invalid

/-- What the branch writes through `pk.begin()`; the invalid branch only logs. -/
def decodePubkey (s : Bytes) : PubkeyEncoding → Except String Bytes
  | .bytes => Detail.loadFromBytes 32 s
  | .hex => .ok (fromHex s)
  | .base64 => .ok (fromBase64 s)
  | .base32z => .ok (fromBase32z s)
  | .invalid => .ok []

/-- `parse_pubkey<T>` on the array of `T`: the decoded bytes over the zero key. -/
def parsePubkey (s : Bytes) : Except String Key32 :=
  Key32.zero.write <$> decodePubkey s (pubkeyEncoding s)

/-- `parse_legacy_pubkey`. -/
def parseLegacyPubkey (s : Bytes) : Except String LegacyPubkey := LegacyPubkey.mk <$> parsePubkey s

/-- `parse_ed25519_pubkey`. -/
def parseEd25519Pubkey (s : Bytes) : Except String Ed25519Pubkey :=
  Ed25519Pubkey.mk <$> parsePubkey s

/-- `parse_x25519_pubkey`. -/
def parseX25519Pubkey (s : Bytes) : Except String X25519Pubkey := X25519Pubkey.mk <$> parsePubkey s

/-! ### Which branch an input takes -/

section Branches
variable {s : Bytes}

theorem pubkeyEncoding_bytes (h : s.length = 32) : pubkeyEncoding s = .bytes := if_pos h

theorem pubkeyEncoding_hex (h : s.length = 64) (hx : isHex s = true) :
    pubkeyEncoding s = .hex := by
  simp [pubkeyEncoding, h, hx]

theorem pubkeyEncoding_base64 (h : s.length = 43 ∨ (s.length = 44 ∧ s.getLast? = some (byte '=')))
    (hb : isBase64 s = true) : pubkeyEncoding s = .base64 := by
  rcases h with h | ⟨h, hl⟩
  · simp [pubkeyEncoding, h, hb]
  · simp [pubkeyEncoding, h, hb, hl]

theorem pubkeyEncoding_base32z (h : s.length = 52) (hz : isBase32z s = true) :
    pubkeyEncoding s = .base32z := by
  simp [pubkeyEncoding, h, hz]

/-- An input whose branch decodes it to the bytes of `k` parses to `k`. -/
theorem parsePubkey_eq {e : PubkeyEncoding} {k : Key32} (he : pubkeyEncoding s = e)
    (hd : decodePubkey s e = .ok k.bytes) : parsePubkey s = .ok k := by
  rw [parsePubkey, he, hd]; exact congrArg Except.ok k.zero_write_bytes

end Branches

/-! ### Every encoding of a key reads back -/

theorem toBase64_of_length_32 {xs : Bytes} (h : xs.length = 32) :
    ∃ cs, toBase64 xs = cs ++ [byte '='] ∧ cs.length = 43 ∧
      ∀ c ∈ cs, isBase64Char c = true := by
  obtain ⟨cs, e, heq, hc, -, hn, he, hev⟩ := toBase64_spec xs
  have he2 : e = 2 := by omega
  subst he2
  exact ⟨cs, heq, by omega, hc⟩

section Encodings
variable (k : Key32)

theorem parsePubkey_bytes : pubkeyEncoding k.bytes = .bytes ∧ parsePubkey k.bytes = .ok k :=
  have he := pubkeyEncoding_bytes k.length_eq
  ⟨he, parsePubkey_eq he (if_neg (by simp [k.length_eq]))⟩

theorem parsePubkey_hex :
    pubkeyEncoding (toHex k.bytes) = .hex ∧ parsePubkey (toHex k.bytes) = .ok k :=
  have he := pubkeyEncoding_hex (by simp [k.length_eq]) (isHex_toHex _)
  ⟨he, parsePubkey_eq he (congrArg Except.ok (fromHex_toHex _))⟩

theorem parsePubkey_hex_upper : pubkeyEncoding ((toHex k.bytes).map asciiUpper) = .hex ∧
    parsePubkey ((toHex k.bytes).map asciiUpper) = .ok k :=
  have he := pubkeyEncoding_hex (by simp [k.length_eq])
    ((isHex_map_asciiUpper _).trans (isHex_toHex _))
  ⟨he, parsePubkey_eq he
    (congrArg Except.ok ((fromHex_map_asciiUpper _).trans (fromHex_toHex _)))⟩

theorem parsePubkey_base64 :
    pubkeyEncoding (toBase64 k.bytes) = .base64 ∧ parsePubkey (toBase64 k.bytes) = .ok k := by
  obtain ⟨cs, heq, hl, -⟩ := toBase64_of_length_32 k.length_eq
  have hlen : (toBase64 k.bytes).length = 44 := by rw [heq, List.length_append, hl]; rfl
  have hlast : (toBase64 k.bytes).getLast? = some (byte '=') := by rw [heq, List.getLast?_concat]
  have he := pubkeyEncoding_base64 (.inr ⟨hlen, hlast⟩) (isBase64_toBase64 _)
  exact ⟨he, parsePubkey_eq he (congrArg Except.ok (fromBase64_toBase64 _))⟩

theorem parsePubkey_base64_unpadded : pubkeyEncoding (b64Digits (toBase64 k.bytes)) = .base64 ∧
    parsePubkey (b64Digits (toBase64 k.bytes)) = .ok k := by
  obtain ⟨cs, heq, hl, hc⟩ := toBase64_of_length_32 k.length_eq
  have hd : b64Digits (toBase64 k.bytes) = cs := by
    simpa using b64Digits_of_chars hc 1 ▸ congrArg b64Digits heq
  have he := pubkeyEncoding_base64 (.inl (by rw [hd, hl])) (isBase64_unpadded _)
  exact ⟨he, parsePubkey_eq he (congrArg Except.ok (fromBase64_unpadded _))⟩

theorem length_toBase32z_key : (toBase32z k.bytes).length = 52 := by
  rw [length_toBase32z, k.length_eq]

theorem parsePubkey_base32z :
    pubkeyEncoding (toBase32z k.bytes) = .base32z ∧ parsePubkey (toBase32z k.bytes) = .ok k :=
  have he := pubkeyEncoding_base32z (length_toBase32z_key k) (isBase32z_toBase32z _)
  ⟨he, parsePubkey_eq he (congrArg Except.ok (fromBase32z_toBase32z _))⟩

end Encodings

/-- **Base32z in either case.** A key's base32z in upper case also parses to the key. -/
theorem parsePubkey_base32z_upper (k : Key32) :
    pubkeyEncoding ((toBase32z k.bytes).map asciiUpper) = .base32z ∧
      parsePubkey ((toBase32z k.bytes).map asciiUpper) = .ok k :=
  have he := pubkeyEncoding_base32z (by rw [List.length_map, length_toBase32z_key])
    ((isBase32z_map_asciiUpper _).trans (isBase32z_toBase32z _))
  ⟨he, parsePubkey_eq he
    (congrArg Except.ok ((fromBase32z_map_asciiUpper _).trans (fromBase32z_toBase32z _)))⟩

/-- **Hex keys are written back in lower case.** Every key given as 64 hex digits, in any
mix of cases, parses to a key whose `hex()` is the same digits in lower case. -/
theorem parsePubkey_hex_lower (s : Bytes) (h : s.length = 64) (hx : isHex s = true) :
    ∃ k, parsePubkey s = .ok k ∧ k.hex = s.map asciiLower := by
  have hlen : (fromHex s).length = 32 := by rw [length_fromHex, h]
  refine ⟨⟨fromHex s, hlen⟩, parsePubkey_eq (pubkeyEncoding_hex h hx) rfl, ?_⟩
  rw [Key32.hex, Detail.toHex, List.take_of_length_le (by rw [hlen]), toHex_fromHex s hx]

theorem parsePubkey_hex_lower_upper_digits :
    (List.replicate 64 (byte 'A')).length = 64 ∧ isHex (List.replicate 64 (byte 'A')) = true ∧
      ∃ k, parsePubkey (List.replicate 64 (byte 'A')) = .ok k ∧
        k.hex = (List.replicate 64 (byte 'A')).map asciiLower :=
  ⟨rfl, by decide, parsePubkey_hex_lower _ rfl (by decide)⟩

/-- **`load_from_hex` fills its buffer exactly.** On hex text of `2 * length` digits in
either case it does not throw and writes exactly `length` bytes, which `to_hex` writes
back as the same digits in lower case. -/
theorem loadFromHex_ok (n : Nat) (hex : Bytes) (hx : isHex hex = true) (hl : hex.length = 2 * n) :
    ∃ b, Detail.loadFromHex n hex = .ok b ∧ b.length = n ∧
      Detail.toHex b n = hex.map asciiLower := by
  have hlen : (fromHex hex).length = n := by rw [length_fromHex, hl]; omega
  refine ⟨fromHex hex, by simp [Detail.loadFromHex, hx, hl], hlen, ?_⟩
  rw [Detail.toHex, List.take_of_length_le hlen.le, toHex_fromHex hex hx]

theorem loadFromHex_ok_upper_key :
    isHex (List.replicate 64 (byte 'F')) = true ∧ (List.replicate 64 (byte 'F')).length = 2 * 32 ∧
      ∃ b, Detail.loadFromHex 32 (List.replicate 64 (byte 'F')) = .ok b ∧ b.length = 32 ∧
        Detail.toHex b 32 = (List.replicate 64 (byte 'F')).map asciiLower :=
  ⟨by decide, rfl, loadFromHex_ok 32 _ (by decide) rfl⟩

/-- **Every encoding reads back.** For every key `k`, each key type's parser returns `k`,
without reaching the invalid branch, on the raw bytes, lower- and upper-case hex,
padded and unpadded base64 and base32z of `k`.  The mnode address is the base32z
followed by `.mnode`, and its first 52 characters parse back to `k`; the strict hex
loader restores `k` from `detail::to_hex`. -/
theorem parsePubkey_encodings (k : Key32) :
    (∀ s ∈ [k.bytes, toHex k.bytes, (toHex k.bytes).map asciiUpper, toBase64 k.bytes,
        b64Digits (toBase64 k.bytes), toBase32z k.bytes],
      pubkeyEncoding s ≠ .invalid ∧ parseLegacyPubkey s = .ok ⟨k⟩ ∧
        parseEd25519Pubkey s = .ok ⟨k⟩ ∧ parseX25519Pubkey s = .ok ⟨k⟩) ∧
    (Ed25519Pubkey.mk k).mnodeAddress = toBase32z k.bytes ++ bytesOf ".mnode" ∧
    (toBase32z k.bytes).length = 52 ∧
    parseEd25519Pubkey (((Ed25519Pubkey.mk k).mnodeAddress).take 52) = .ok ⟨k⟩ ∧
    Detail.loadFromHex 32 (Detail.toHex k.bytes 32) = .ok k.bytes := by
  have typed : ∀ {s : Bytes} {e : PubkeyEncoding}, e ≠ .invalid →
      pubkeyEncoding s = e ∧ parsePubkey s = .ok k →
      pubkeyEncoding s ≠ .invalid ∧ parseLegacyPubkey s = .ok ⟨k⟩ ∧
        parseEd25519Pubkey s = .ok ⟨k⟩ ∧ parseX25519Pubkey s = .ok ⟨k⟩ := by
    rintro s e hne ⟨he, hp⟩
    simp only [parseLegacyPubkey, parseEd25519Pubkey, parseX25519Pubkey, hp, he]
    exact ⟨hne, rfl, rfl, rfl⟩
  refine ⟨?_, rfl, length_toBase32z_key k, ?_, ?_⟩
  · simp only [List.mem_cons, List.mem_singleton, List.not_mem_nil, or_false]
    rintro s (rfl | rfl | rfl | rfl | rfl | rfl)
    exacts [typed (by decide) (parsePubkey_bytes k), typed (by decide) (parsePubkey_hex k),
      typed (by decide) (parsePubkey_hex_upper k), typed (by decide) (parsePubkey_base64 k),
      typed (by decide) (parsePubkey_base64_unpadded k), typed (by decide) (parsePubkey_base32z k)]
  · rw [Ed25519Pubkey.mnodeAddress, List.take_left' (length_toBase32z_key k), parseEd25519Pubkey,
      (parsePubkey_base32z k).2]
    rfl
  · simp [Detail.loadFromHex, Detail.toHex, k.length_eq, isHex_toHex, fromHex_toHex]

/-! ### What an accepted input decodes to -/

theorem b64Digits_of_isBase64 {s : Bytes} (hl : s.length % 4 ≠ 0) (hb : isBase64 s = true) :
    b64Digits s = s := by
  simp only [isBase64, hl, and_false, if_false, List.all_eq_true] at hb
  exact List.filter_eq_self.mpr fun c hc => by simpa using ne_pad_of_isBase64Char (hb c hc)

/-- The characters `from_base64` reads from a 44-character input ending in `=` that
`is_base64` accepts: 42 if it ends in `==`, 43 otherwise. -/
theorem length_b64Digits_44 {s : Bytes} (hl : s.length = 44) (hlast : s.getLast? = some (byte '='))
    (hb : isBase64 s = true) :
    (b64Digits s).length = if s.dropLast.getLast? = some (byte '=') then 42 else 43 := by
  obtain ⟨t, rfl⟩ := List.getLast?_eq_some_iff.mp hlast
  have ht : t.length = 43 := by simpa using hl
  have h4 : t ++ [byte '='] ≠ [] ∧ (t ++ [byte '=']).length % 4 = 0 := ⟨by simp, by simp [ht]⟩
  simp only [isBase64] at hb
  rw [if_pos h4, if_pos (List.getLast?_concat _), List.dropLast_concat] at hb
  rw [List.dropLast_concat]
  by_cases h2 : t.getLast? = some (byte '=')
  · rw [if_pos h2] at hb ⊢
    obtain ⟨u, rfl⟩ := List.getLast?_eq_some_iff.mp h2
    rw [List.dropLast_concat, List.all_eq_true] at hb
    have := b64Digits_of_chars hb 2
    simp only [List.replicate, List.append_assoc, List.singleton_append] at this ⊢
    rw [this]; simpa using ht
  · rw [if_neg h2] at hb ⊢
    have := b64Digits_of_chars (List.all_eq_true.mp hb) 1
    simp only [List.replicate] at this
    rw [this, ht]

/-- What each branch of `parse_pubkey` requires of its input. -/
theorem pubkeyEncoding_cases (s : Bytes) :
    (pubkeyEncoding s = .bytes ∧ s.length = 32) ∨
      (pubkeyEncoding s = .hex ∧ s.length = 64 ∧ isHex s = true) ∨
      (pubkeyEncoding s = .base64 ∧
        (s.length = 43 ∨ (s.length = 44 ∧ s.getLast? = some (byte '='))) ∧ isBase64 s = true) ∨
      (pubkeyEncoding s = .base32z ∧ s.length = 52 ∧ isBase32z s = true) ∨
      pubkeyEncoding s = .invalid := by
  unfold pubkeyEncoding
  by_cases h1 : s.length = 32
  · exact .inl ⟨if_pos h1, h1⟩
  by_cases h2 : s.length = 64 ∧ isHex s = true
  · exact .inr (.inl ⟨by rw [if_neg h1, if_pos h2], h2⟩)
  by_cases h3 : (s.length = 43 ∨ (s.length = 44 ∧ s.getLast? = some (byte '='))) ∧
      isBase64 s = true
  · exact .inr (.inr (.inl ⟨by rw [if_neg h1, if_neg h2, if_pos h3], h3⟩))
  by_cases h4 : s.length = 52 ∧ isBase32z s = true
  · exact .inr (.inr (.inr (.inl ⟨by rw [if_neg h1, if_neg h2, if_neg h3, if_pos h4], h4⟩)))
  · exact .inr (.inr (.inr (.inr (by rw [if_neg h1, if_neg h2, if_neg h3, if_neg h4]))))

/-- The bytes the base64 branch writes: 32, or 31 for a 44-character input ending in
`==`. -/
theorem length_fromBase64_accepted {s : Bytes}
    (hl : s.length = 43 ∨ (s.length = 44 ∧ s.getLast? = some (byte '=')))
    (hb : isBase64 s = true) :
    (fromBase64 s).length =
      if s.length = 44 ∧ s.dropLast.getLast? = some (byte '=') then 31 else 32 := by
  rw [length_fromBase64]
  rcases hl with hl | ⟨hl, hlast⟩
  · rw [b64Digits_of_isBase64 (by omega) hb, hl]; simp [hl]
  · rw [length_b64Digits_44 hl hlast hb]; split_ifs <;> simp_all

/-- **Decoded length of an accepted input.** Every input `parse_pubkey` accepts decodes
to exactly 32 bytes, except a 44-character base64 input whose last two characters are
`=`, which decodes to 31. -/
theorem decodePubkey_length (s : Bytes) (h : pubkeyEncoding s ≠ .invalid) :
    ∃ out, decodePubkey s (pubkeyEncoding s) = .ok out ∧
      out.length = if s.length = 44 ∧ s.dropLast.getLast? = some (byte '=') then 31 else 32 := by
  rcases pubkeyEncoding_cases s with ⟨he, hl⟩ | ⟨he, hl, -⟩ | ⟨he, hl, hb⟩ | ⟨he, hl, -⟩ | he
  · rw [he]; exact ⟨s, if_neg (by simp [hl]), by simp [hl]⟩
  · rw [he]; exact ⟨_, rfl, by simp [length_fromHex, hl]⟩
  · rw [he]; exact ⟨_, rfl, length_fromBase64_accepted hl hb⟩
  · rw [he]; exact ⟨_, rfl, by simp [length_fromBase32z, hl]⟩
  · exact absurd he h

/-- The input of the slip: 42 base64 characters `/`, then `==`. -/
def doublePadded : Bytes := List.replicate 42 (byte '/') ++ [byte '=', byte '=']

set_option maxRecDepth 8000 in
theorem decodePubkey_length_double_padded :
    pubkeyEncoding doublePadded ≠ .invalid ∧
      ∃ out, decodePubkey doublePadded (pubkeyEncoding doublePadded) = .ok out ∧
        out.length = if doublePadded.length = 44 ∧
          doublePadded.dropLast.getLast? = some (byte '=') then 31 else 32 :=
  ⟨by decide, decodePubkey_length _ (by decide)⟩

set_option maxRecDepth 8000 in
/-- `parse_pubkey` takes `doublePadded` as base64, decodes it to 31 bytes `0xff`, and
returns a key whose last byte is the zero key's. -/
theorem parsePubkey_double_padded :
    pubkeyEncoding doublePadded = .base64 ∧ fromBase64 doublePadded = List.replicate 31 255 ∧
      parsePubkey doublePadded = .ok ⟨List.replicate 31 255 ++ [0], by simp⟩ :=
  ⟨by decide, by decide, rfl⟩

/-- **Every input of the slip.** Every 44-character input ending in `==` that
`parse_pubkey` takes as base64 decodes to 31 bytes, and the key it returns is those
bytes followed by the zero key's last byte. -/
theorem parsePubkey_of_double_pad {s : Bytes} (he : pubkeyEncoding s = .base64)
    (hl : s.length = 44) (h2 : s.dropLast.getLast? = some (byte '=')) :
    (fromBase64 s).length = 31 ∧ ∃ k : Key32, parsePubkey s = .ok k ∧ k.bytes = fromBase64 s ++ [0] := by
  obtain ⟨hlb, hb⟩ : (s.length = 43 ∨ (s.length = 44 ∧ s.getLast? = some (byte '='))) ∧
      isBase64 s = true := by
    rcases pubkeyEncoding_cases s with ⟨he', -⟩ | ⟨he', -⟩ | ⟨-, h⟩ | ⟨he', -⟩ | he' <;>
      first | exact h | (rw [he] at he'; cases he')
  have h31 : (fromBase64 s).length = 31 := by
    rw [length_fromBase64_accepted hlb hb, if_pos ⟨hl, h2⟩]
  refine ⟨h31, _, by rw [parsePubkey, he]; rfl, ?_⟩
  simp [Key32.write, Key32.zero, h31]

set_option maxRecDepth 8000 in
theorem parsePubkey_of_double_pad_slashes :
    pubkeyEncoding doublePadded = .base64 ∧ doublePadded.length = 44 ∧
      doublePadded.dropLast.getLast? = some (byte '=') ∧
      ((fromBase64 doublePadded).length = 31 ∧
        ∃ k : Key32, parsePubkey doublePadded = .ok k ∧ k.bytes = fromBase64 doublePadded ++ [0]) :=
  ⟨by decide, rfl, by decide, parsePubkey_of_double_pad (by decide) rfl (by decide)⟩

end Beldex
