import BeldexStorage.Key

/-! # Channel encryption

`ChannelEncryption` is declared in `crypto/channel_encryption.hpp` and defined in
`channel_encryption.cpp`, neither of which is under `src/`; `onion-request.cpp` only
calls it.  It is modelled here from the spec (§4.2, §8): X25519 key agreement and one of
three ciphers, the X25519 scalar multiplication, key derivations and ciphers being
libsodium's and OpenSSL's.  They enter as the fields of `ChannelCrypto`, with the one law
the spec gives them: what one side encrypts to the other's key, the other side decrypts.

`ChannelCrypto.cleartext` satisfies the laws, so they are consistent; `ChannelCrypto.tagged`
satisfies them too and refuses what it did not encrypt.
-/
namespace Beldex
open Bmq

/-- Modelled from the spec: `EncryptType`, the three ciphersuites of §4.2. -/
inductive EncryptType
  | aesCbc
  | aesGcm
  | xchacha20
  deriving DecidableEq

/-- Modelled from the spec: `to_string(EncryptType)`, the `enc_type` names of §4.3.1. -/
def EncryptType.toString : EncryptType → String
  | .aesCbc => "aes-cbc"
  | .aesGcm => "aes-gcm"
  | .xchacha20 => "xchacha20"

/-- Modelled from the spec: the operations of `ChannelEncryption` (§4.2).  A
`ChannelEncryption{seckey, pubkey, server}` holds one party's X25519 keypair and whether
it is the server side; `encrypt` and `decrypt` take the cipher, the data and the other
party's public key. -/
structure ChannelCrypto where
  /-- `crypto_scalarmult_base`: the public key `crypto_box_keypair` pairs with a secret. -/
  pubkey : X25519Seckey → X25519Pubkey
  /-- `ChannelEncryption{seckey, pubkey, server}.encrypt(type, plaintext, remote)`, with the
  random nonce or IV it draws. -/
  encrypt :
    EncryptType → X25519Seckey → X25519Pubkey → Bool → Bytes → X25519Pubkey → Bytes → Bytes
  /-- `ChannelEncryption{seckey, pubkey, server}.decrypt(type, ciphertext, remote)`; `none`
  where it throws. -/
  decrypt :
    EncryptType → X25519Seckey → X25519Pubkey → Bool → Bytes → X25519Pubkey → Option Bytes
  /-- §8: a relay (server side) decrypts what a client encrypted to its key. -/
  decrypt_encrypt : ∀ t a x m nonce,
    decrypt t x (pubkey x) true (encrypt t a (pubkey a) false m (pubkey x) nonce) (pubkey a) = some m
  /-- §8, §4.3.3 step 5: a client decrypts what a relay encrypted back to it. -/
  decrypt_encrypt_reply : ∀ t a x m nonce,
    decrypt t a (pubkey a) false (encrypt t x (pubkey x) true m (pubkey a) nonce) (pubkey x) = some m

/-- The cipher that leaves data as it is, with public key equal to secret key. -/
def ChannelCrypto.cleartext : ChannelCrypto where
  pubkey a := ⟨a.key⟩
  encrypt _ _ _ _ m _ _ := m
  decrypt _ _ _ _ c _ := some c
  decrypt_encrypt _ _ _ _ _ := rfl
  decrypt_encrypt_reply _ _ _ _ _ := rfl

/-- The cipher that marks what it encrypts with a leading byte `0xff` and refuses data
without the mark, with public key equal to secret key: base64 text, which is ASCII, is never
taken for one of its ciphertexts. -/
def ChannelCrypto.tagged : ChannelCrypto where
  pubkey a := ⟨a.key⟩
  encrypt _ _ _ _ m _ _ := 0xff :: m
  decrypt _ _ _ _ c _ := if c.head? = some 0xff then some c.tail else none
  decrypt_encrypt _ _ _ _ _ := by simp
  decrypt_encrypt_reply _ _ _ _ _ := by simp

end Beldex
