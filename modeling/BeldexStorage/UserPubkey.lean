import BeldexStorage.Bmq.Hex

/-! # Session pubkeys

`beldex_common.cpp`.  A `user_pubkey_t` is a network id byte and a 32-byte key.
`load` accepts four shapes (66 hex digits, 33 raw bytes, and on testnet 64 hex digits
or 32 raw bytes, which imply network id 5); `prefixed_raw` and `prefixed_hex` write the
key back with its network id in front, except that `prefixed_hex` leaves the id out
for network id 0 on testnet.

`load_canonical` says what loading the two canonical forms gives back under the same
`is_mainnet`: `prefixed_raw` always the same key, `prefixed_hex` the same key except
for network id 0 on testnet, which comes back as network id 5
(`load_prefixedHex_testnet_zero`).
-/
namespace Beldex
open Bmq

/-- Modelled from the spec: `USER_PUBKEY_SIZE_BYTES` (`beldex_common.h` is not under
`src/`), a network id byte and 32 key bytes (§3). -/
def userPubkeySizeBytes : Nat := 33

/-- Modelled from the spec: `USER_PUBKEY_SIZE_HEX`, 66 hex digits (§3). -/
def userPubkeySizeHex : Nat := 66

/-- Modelled from the spec: the fields of `user_pubkey_t` (`beldex_common.h` is not
under `src/`).  `network_` is the network id byte, `0xFF` once a load has failed (§4.1);
`pubkey_` is the key, empty once a load has failed. -/
structure UserPubkey where
  network : UInt8
  pubkey : Bytes
  deriving DecidableEq

/-- The branches of `user_pubkey_t::load`. -/
inductive UserPubkeyShape
  | prefixedHex
  | prefixedRaw
  | testnetHex
  | testnetRaw
  | invalid
  deriving DecidableEq

namespace UserPubkey

/-- The branch `load` takes, tested in the source's order; `isMainnet` is the global
`is_mainnet`. -/
def loadShape (isMainnet : Bool) (pk : Bytes) : UserPubkeyShape :=
  if pk.length = userPubkeySizeHex ∧ isHex pk then .prefixedHex
  else if pk.length = userPubkeySizeBytes then .prefixedRaw
  else if !isMainnet ∧ pk.length = userPubkeySizeHex - 2 ∧ isHex pk then .testnetHex
  else if !isMainnet ∧ pk.length = userPubkeySizeBytes - 1 then .testnetRaw
  else .invalid

/-- `user_pubkey_t::load`: every field is overwritten, so the result depends on the
input alone. -/
def load (isMainnet : Bool) (pk : Bytes) : UserPubkey :=
  match loadShape isMainnet pk with
  | .prefixedHex => ⟨(fromHex (pk.take 2)).headD 0, fromHex (pk.drop 2)⟩
  | .prefixedRaw => ⟨pk.headD 0, pk.drop 1⟩
  | .testnetHex => ⟨5, fromHex pk⟩
  | .testnetRaw => ⟨5, pk⟩
  | .invalid => ⟨0xFF, []⟩

/-- `user_pubkey_t::hex`. -/
def hex (u : UserPubkey) : Bytes := toHex u.pubkey

/-- `user_pubkey_t::prefixed_hex`: the network id is left out for id 0 on testnet. -/
def prefixedHex (isMainnet : Bool) (u : UserPubkey) : Bytes :=
  if u.pubkey = [] then []
  else (if ¬(u.network = 0 ∧ isMainnet = false) then toHex [u.network] else []) ++ toHex u.pubkey

/-- `user_pubkey_t::prefixed_raw`. -/
def prefixedRaw (u : UserPubkey) : Bytes :=
  if u.pubkey = [] then [] else u.network :: u.pubkey

/-! ### Accepted inputs -/

/-- What each branch of `load` requires of the input's length. -/
theorem length_of_loadShape {m : Bool} {pk : Bytes} :
    (loadShape m pk = .prefixedHex → pk.length = 66) ∧
      (loadShape m pk = .prefixedRaw → pk.length = 33) ∧
      (loadShape m pk = .testnetHex → pk.length = 64) ∧
      (loadShape m pk = .testnetRaw → pk.length = 32) := by
  unfold loadShape
  by_cases h1 : pk.length = userPubkeySizeHex ∧ isHex pk = true
  · simp only [if_pos h1]; exact ⟨fun _ => h1.1, nofun, nofun, nofun⟩
  by_cases h2 : pk.length = userPubkeySizeBytes
  · simp only [if_neg h1, if_pos h2]; exact ⟨nofun, fun _ => h2, nofun, nofun⟩
  by_cases h3 : (!m) = true ∧ pk.length = userPubkeySizeHex - 2 ∧ isHex pk = true
  · simp only [if_neg h1, if_neg h2, if_pos h3]; exact ⟨nofun, nofun, fun _ => h3.2.1, nofun⟩
  by_cases h4 : (!m) = true ∧ pk.length = userPubkeySizeBytes - 1
  · simp only [if_neg h1, if_neg h2, if_neg h3, if_pos h4]
    exact ⟨nofun, nofun, nofun, fun _ => h4.2⟩
  · simp only [if_neg h1, if_neg h2, if_neg h3, if_neg h4]; exact ⟨nofun, nofun, nofun, nofun⟩

theorem length_pubkey_load {m : Bool} {pk : Bytes} (h : loadShape m pk ≠ .invalid) :
    (load m pk).pubkey.length = 32 := by
  obtain ⟨h1, h2, h3, h4⟩ := @length_of_loadShape m pk
  unfold load
  cases hs : loadShape m pk with
  | prefixedHex => rw [length_fromHex, List.length_drop, h1 hs]
  | prefixedRaw => rw [List.length_drop, h2 hs]
  | testnetHex => rw [length_fromHex, h3 hs]
  | testnetRaw => exact h4 hs
  | invalid => exact absurd hs h

theorem load_of_raw (m : Bool) (n : UInt8) {p : Bytes} (hp : p.length = 32) :
    load m (n :: p) = ⟨n, p⟩ := by
  have : loadShape m (n :: p) = .prefixedRaw := by
    simp [loadShape, hp, userPubkeySizeHex, userPubkeySizeBytes]
  simp [load, this]

theorem load_of_hex (m : Bool) (n : UInt8) {p : Bytes} (hp : p.length = 32) :
    load m (toHex [n] ++ toHex p) = ⟨n, p⟩ := by
  have hcons : toHex [n] ++ toHex p = toHex (n :: p) := rfl
  have : loadShape m (toHex [n] ++ toHex p) = .prefixedHex := by
    simp [loadShape, hcons, isHex_toHex, hp, userPubkeySizeHex]
  have h2 : (toHex [n]).length = 2 := rfl
  simp only [load, this, List.take_left' h2, List.drop_left' h2, fromHex_toHex]
  rfl

theorem load_of_testnet_hex {p : Bytes} (hp : p.length = 32) : load false (toHex p) = ⟨5, p⟩ := by
  have : loadShape false (toHex p) = .testnetHex := by
    simp [loadShape, isHex_toHex, hp, userPubkeySizeHex, userPubkeySizeBytes]
  simp [load, this, fromHex_toHex]

/-- **Loading the canonical forms.** Under the same `is_mainnet`, `prefixed_raw` of an
accepted key loads back to the same key; so does `prefixed_hex`, except for network id
0 on testnet, whose `prefixed_hex` is unprefixed and loads back with network id 5. -/
theorem load_canonical (m : Bool) (s : Bytes) (h : loadShape m s ≠ .invalid) :
    (load m s).pubkey.length = 32 ∧ load m (load m s).prefixedRaw = load m s ∧
      load m ((load m s).prefixedHex m) =
        if (load m s).network = 0 ∧ m = false then ⟨5, (load m s).pubkey⟩ else load m s := by
  have hp := length_pubkey_load h
  refine ⟨hp, ?_⟩
  generalize load m s = u at hp ⊢
  have hne : u.pubkey ≠ [] := fun he => by simp [he] at hp
  refine ⟨by rw [prefixedRaw, if_neg hne, load_of_raw m u.network hp], ?_⟩
  rw [prefixedHex, if_neg hne]
  by_cases h0 : u.network = 0 ∧ m = false
  · rw [if_neg (not_not.mpr h0), List.nil_append, if_pos h0, h0.2, load_of_testnet_hex hp]
  · rw [if_pos h0, if_neg h0, load_of_hex m u.network hp]

/-- 66 hex digits `0`: network id 0 and the zero key. -/
def zeroNetworkHex : Bytes := toHex (List.replicate 33 0)

/-- On testnet `zeroNetworkHex` loads as network id 0, and its `prefixed_hex` loads back
as network id 5. -/
theorem load_prefixedHex_testnet_zero :
    loadShape false zeroNetworkHex = .prefixedHex ∧ (load false zeroNetworkHex).network = 0 ∧
      (load false ((load false zeroNetworkHex).prefixedHex false)).network = 5 := by
  decide

theorem load_canonical_testnet_zero :
    loadShape false zeroNetworkHex ≠ .invalid ∧
      ((load false zeroNetworkHex).pubkey.length = 32 ∧
        load false (load false zeroNetworkHex).prefixedRaw = load false zeroNetworkHex ∧
        load false ((load false zeroNetworkHex).prefixedHex false) =
          if (load false zeroNetworkHex).network = 0 ∧ false = false
          then ⟨5, (load false zeroNetworkHex).pubkey⟩ else load false zeroNetworkHex) :=
  ⟨by decide, load_canonical false zeroNetworkHex (by decide)⟩

end UserPubkey

end Beldex
