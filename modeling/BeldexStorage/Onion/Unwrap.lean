import BeldexStorage.Onion.Request

/-! # Unwrapping an onion along its path

The relays' side of §4.3.3, modelled from the spec (the relay code is not under
`src/`): a relay decrypts the blob addressed to it with its x25519 secret, against the
ephemeral key and cipher it is told, and reads the plaintext as a layer.  `Unwraps`
says that the relays of a path do this one after another and the last one finds the
payload and the control.

`onionRequest_unwraps` is the main result: for every nonempty path, payload, control,
choice of ciphers and ephemeral keys, what `onion_request` posts unwraps along the
path, every size prefix being the length of its blob modulo `2^32`; and the client
keeps the last relay's ephemeral keypair and cipher.  `splitFrame_open_payload4GiB`
shows that the modulus is reached, against the comment of `onion_request` that the size
prefix is the length of the blob: a payload of `2^32` bytes comes back empty.
-/
namespace Beldex
open Bmq

/-- A relay of the path: its keys, of which only it holds the secret one, and what the
client drew for the layer addressed to it. -/
structure PathHop where
  ed : Ed25519Pubkey
  x : X25519Seckey
  draw : HopDraw

/-- A relay as it unwraps: its ed25519 key, its x25519 secret, and the ephemeral key and
cipher of the layer addressed to it. -/
structure RelayHop where
  ed : Ed25519Pubkey
  x : X25519Seckey
  eph : X25519Pubkey
  etype : EncryptType

/-- §4.3.3 step 2: the relay decrypts a blob addressed to it. -/
def RelayHop.open (cc : ChannelCrypto) (h : RelayHop) (blob : Bytes) : Option Bytes :=
  cc.decrypt h.etype h.x (cc.pubkey h.x) true blob h.eph

/-- `frame` is the layer of `blob` and `tail`, and a relay reading it gets both back
whenever `blob` is shorter than `2^32` bytes. -/
def IsLayer (frame blob tail : Bytes) : Prop :=
  frame = layer blob tail ∧ (blob.length < 2 ^ 32 → splitFrame frame = some (blob, tail))

theorem isLayer_layer (blob tail : Bytes) : IsLayer (layer blob tail) blob tail :=
  ⟨rfl, fun h => splitFrame_layer_of_lt h tail⟩

/-- The relays `h :: hs` unwrap `blob` one after another, and the last finds `P` and
`C`: each decrypts the blob addressed to it into the layer of the next relay's blob
and the routing that names the next relay, the last into the layer of `P` and `C`. -/
def Unwraps (cc : ChannelCrypto) (P C : Bytes) : RelayHop → List RelayHop → Bytes → Prop
  | h, [], blob => ∃ frame, h.open cc blob = some frame ∧ IsLayer frame P C
  | h, h' :: hs, blob => ∃ frame inner, h.open cc blob = some frame ∧
      IsLayer frame inner (routing h'.ed h'.eph h'.etype) ∧ Unwraps cc P C h' hs inner

namespace PathHop
variable (cc : ChannelCrypto) (encType : Option EncryptType)

/-- The relay as the client knows it, with the client's draw for its layer. -/
def client (h : PathHop) : Relay × HopDraw := (⟨h.ed, cc.pubkey h.x⟩, h.draw)

/-- The relay as it unwraps the layer the client built for it. -/
def relay (h : PathHop) : RelayHop :=
  ⟨h.ed, h.x, cc.pubkey h.draw.seckey, layerEtype encType h.draw⟩

/-- `onion_request` on a path of relays: the blob for the first relay, and the last
relay's ephemeral keypair and cipher. -/
theorem onionRequest_map_client (P C : Bytes) (p : PathHop) (ps : List PathHop) :
    onionRequest cc encType ((p :: ps).map (client cc)) P C =
      some ⟨layer (onionBlob cc encType P C (p.client cc) (ps.map (client cc)))
          (entryControl (cc.pubkey p.draw.seckey) (layerEtype encType p.draw)),
        ((p :: ps).getLast (List.cons_ne_nil _ _)).draw.seckey,
        cc.pubkey ((p :: ps).getLast (List.cons_ne_nil _ _)).draw.seckey,
        layerEtype encType ((p :: ps).getLast (List.cons_ne_nil _ _)).draw⟩ := by
  have hlast : ((p :: ps).map (client cc)).getLast (by simp) =
      ((p :: ps).getLast (List.cons_ne_nil _ _)).client cc := List.getLast_map ..
  rw [List.map_cons, onionRequest_eq]
  simp only [← List.map_cons, hlast]
  rfl

/-- Each relay decrypts the layer the client encrypted to it. -/
theorem open_onionBlob (P C : Bytes) : ∀ (h : PathHop) (hs : List PathHop),
    Unwraps cc P C (h.relay cc encType) (hs.map (relay cc encType))
      (onionBlob cc encType P C (h.client cc) (hs.map (client cc)))
  | _, [] => ⟨_, cc.decrypt_encrypt .., isLayer_layer P C⟩
  | _, h' :: hs => ⟨_, _, cc.decrypt_encrypt .., isLayer_layer _ _, open_onionBlob P C h' hs⟩

end PathHop

/-- **The onion unwraps along its path.** For every nonempty path, payload `P` and
control `C` of any length, cipher choice and ephemeral keys: the wire frame is the layer
of the first relay's blob and the entry control; relay after relay decrypts its blob
into the layer of the next blob and the routing naming the next relay, and the last into
the layer of `P` and `C`.  Each layer gives its blob back to the relay reading it when
the blob is shorter than `2^32` bytes.  The client keeps the last relay's ephemeral
keypair and cipher. -/
theorem onionRequest_unwraps (cc : ChannelCrypto) (encType : Option EncryptType) (P C : Bytes)
    (p : PathHop) (ps : List PathHop) :
    ∃ req blob, onionRequest cc encType ((p :: ps).map (PathHop.client cc)) P C = some req ∧
      IsLayer req.wire blob (entryControl (cc.pubkey p.draw.seckey) (layerEtype encType p.draw)) ∧
      Unwraps cc P C (p.relay cc encType) (ps.map (PathHop.relay cc encType)) blob ∧
      req.finalSeckey = ((p :: ps).getLast (List.cons_ne_nil _ _)).draw.seckey ∧
      req.finalPubkey = cc.pubkey ((p :: ps).getLast (List.cons_ne_nil _ _)).draw.seckey ∧
      req.finalEtype = layerEtype encType ((p :: ps).getLast (List.cons_ne_nil _ _)).draw :=
  ⟨_, _, PathHop.onionRequest_map_client cc encType P C p ps, isLayer_layer _ _,
    PathHop.open_onionBlob cc encType P C p ps, rfl, rfl, rfl⟩

/-! ### A payload of `2^32` bytes -/

/-- A relay with all-zero keys and draw. -/
def zeroHop : PathHop := ⟨⟨Key32.zero⟩, ⟨Key32.zero⟩, ⟨⟨Key32.zero⟩, 0, []⟩⟩

/-- `2^32` zero bytes. -/
def payload4GiB : Bytes := List.replicate (2 ^ 32) 0

/-- For every cipher, the one-relay onion of `payload4GiB` and an empty control: the
relay decrypts its blob into a frame whose size prefix is `0`, so it reads an empty
payload and takes the whole payload for the control. -/
theorem splitFrame_open_payload4GiB (cc : ChannelCrypto) : ∃ req blob frame,
    onionRequest cc none [zeroHop.client cc] payload4GiB [] = some req ∧
      req.wire = layer blob (entryControl (cc.pubkey zeroHop.draw.seckey)
        (layerEtype none zeroHop.draw)) ∧
      (zeroHop.relay cc none).open cc blob = some frame ∧
      splitFrame frame = some ([], payload4GiB) ∧ splitFrame frame ≠ some (payload4GiB, []) := by
  have hlen : payload4GiB.length = 2 ^ 32 := List.length_replicate _ _
  have hsplit : splitFrame (layer payload4GiB []) = some ([], payload4GiB) := by
    rw [splitFrame_layer, hlen, Nat.mod_self, List.take_zero, List.drop_zero, List.append_nil]
  refine ⟨_, _, _, onionRequest_eq cc none payload4GiB [] _ [], rfl, cc.decrypt_encrypt .., hsplit,
    ?_⟩
  rw [hsplit]
  intro h
  have h0 := congrArg List.length (Prod.mk.inj (Option.some.inj h)).1
  rw [hlen] at h0
  exact (Nat.two_pow_pos 32).ne h0

end Beldex
