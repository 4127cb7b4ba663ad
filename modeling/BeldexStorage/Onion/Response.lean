import BeldexStorage.Onion.Unwrap

/-! # Reading the response

The end of `onion_request`: nothing in the response says how it is encoded, so the
client guesses.  It decrypts the body with the keypair and cipher it kept, against the
last relay's x25519 key; failing that, a base64 body is decoded and decrypted; failing
that, the body is printed as it came.  An empty body prints nothing.

`readResponse_reply` says that the guess finds what the last relay encrypted back, sent
raw or in base64 — in base64 whenever the cipher refuses the base64 text itself.
-/
namespace Beldex
open Bmq

/-- The body `onion_request` prints, or `none` for an empty response. -/
def readResponse (cc : ChannelCrypto) (req : OnionRequest) (remote : X25519Pubkey)
    (body : Bytes) : Option Bytes :=
  if body = [] then none
  else
    match cc.decrypt req.finalEtype req.finalSeckey req.finalPubkey false body remote with
    | some m => some m
    | none =>
      if isBase64 body then
        some ((cc.decrypt req.finalEtype req.finalSeckey req.finalPubkey false (fromBase64 body)
          remote).getD (fromBase64 body))
      else some body

theorem toBase64_ne_nil {xs : Bytes} (h : xs ≠ []) : toBase64 xs ≠ [] := by
  obtain ⟨cs, e, heq, -, -, hn, -, -⟩ := toBase64_spec xs
  have : 0 < xs.length := List.length_pos.mpr h
  have hcs : cs ≠ [] := fun hc => by simp [hc] at hn; omega
  simp [heq, hcs]

/-- **The response comes back.** For every path, payload and control, what the last
relay encrypts back to the client's final ephemeral key is printed as it was, whether it
is sent raw or, when the cipher refuses the base64 text, in base64. -/
theorem readResponse_reply (cc : ChannelCrypto) (encType : Option EncryptType) (P C : Bytes)
    (p : PathHop) (ps : List PathHop) (m nonce : Bytes) :
    let last := (p :: ps).getLast (List.cons_ne_nil _ _)
    let reply := cc.encrypt (layerEtype encType last.draw) last.x (cc.pubkey last.x) true m
      (cc.pubkey last.draw.seckey) nonce
    ∃ req, onionRequest cc encType ((p :: ps).map (PathHop.client cc)) P C = some req ∧
      (reply ≠ [] →
        readResponse cc req (cc.pubkey last.x) reply = some m ∧
        (cc.decrypt req.finalEtype req.finalSeckey req.finalPubkey false (toBase64 reply)
            (cc.pubkey last.x) = none →
          readResponse cc req (cc.pubkey last.x) (toBase64 reply) = some m)) := by
  intro last reply
  refine ⟨_, PathHop.onionRequest_map_client cc encType P C p ps,
    fun hne => ⟨?raw, fun hfail => ?b64⟩⟩
  case raw =>
    rw [readResponse, if_neg hne, cc.decrypt_encrypt_reply]
  case b64 =>
    rw [readResponse, if_neg (toBase64_ne_nil hne), hfail]
    simp only [isBase64_toBase64, fromBase64_toBase64, if_true, cc.decrypt_encrypt_reply,
      Option.getD_some]

/-- Under `ChannelCrypto.tagged`, the reply `pong` of a one-relay path comes back through
either branch: raw, and in base64, which the cipher refuses as it stands. -/
theorem readResponse_reply_tagged :
    ∃ req, onionRequest .tagged none [zeroHop.client .tagged] (bytesOf "ping") [] = some req ∧
      readResponse .tagged req (ChannelCrypto.tagged.pubkey zeroHop.x)
          (0xff :: bytesOf "pong") = some (bytesOf "pong") ∧
      readResponse .tagged req (ChannelCrypto.tagged.pubkey zeroHop.x)
          (toBase64 (0xff :: bytesOf "pong")) = some (bytesOf "pong") := by
  obtain ⟨req, hreq, h⟩ := readResponse_reply .tagged none (bytesOf "ping") [] zeroHop []
    (bytesOf "pong") []
  obtain ⟨hraw, hb64⟩ := h (List.cons_ne_nil _ _)
  exact ⟨req, hreq, hraw, hb64 (by simp only [ChannelCrypto.tagged]; decide)⟩

end Beldex
