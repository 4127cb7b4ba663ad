import BeldexStorage.Onion.Cli
import BeldexStorage.Onion.Request

/-! # From the command line to the onion

`main` in `contrib/onion-request.cpp`, after its arguments: beldexd returns the ed25519
and x25519 keys of the relays it knows, `main` looks each relay key of the command line
up in that answer, in order, and goes on only if every relay was found and the first
relay's address is known; then it calls `onion_request` on the path.

`chain_of_buildChain` says that a path that passes the checks is the relays of the
command line, each as beldexd returned it; `main_onionRequest` that `onion_request` is
then called on a nonempty path and builds its onion, whatever its random draws; and
`buildChain_ne_needOneRelay` that the check `chain.empty()` never fires after an
accepted command line.

The handler of beldexd's answer (`readMasterNodes`) then gives `mainPath`, the whole way from
the answer to `onion_request`, and `mainPath_upper_front` that the two ways `main` matches a
relay key, by `legacy_pubkey::from_hex` for the path and by text for the first hop, disagree.
-/
namespace Beldex
open Bmq

/-- The error of `main` when beldexd did not return every relay. -/
def missingX25519 : Bytes := bytesOf "Missing x25519 pubkeys"

/-- The error of `main` for an empty path. -/
def needOneRelay : Bytes := bytesOf "Need at least one MN pubkey"

/-- The error of `main` when the first relay's address is unknown. -/
def missingFirstHop : Bytes := bytesOf "Missing IP/port of first hop"

/-- The path `main` builds from beldexd's answer, or the error it prints before
returning 2.  `lookup` is `aux_keys.find` of a key of the command line; `firstIp` and
`firstPort` are the first relay's `public_ip` and `storage_port` (a `uint16_t`), empty
and `0` when beldexd did not return that relay. -/
def buildChain (lookup : Bytes → Option Relay) (pubkeysHex : List Bytes) (firstIp : Bytes)
    (firstPort : Nat) : Except Bytes (List Relay) :=
  let chain := pubkeysHex.filterMap lookup
  if chain.length ≠ pubkeysHex.length then .error missingX25519
  else if chain.isEmpty then .error needOneRelay
  else if firstIp = [] ∨ firstPort = 0 then .error missingFirstHop
  else .ok chain

/-- Every relay is found exactly when no relay is dropped. -/
theorem forall₂_filterMap {α β : Type} (f : α → Option β) :
    ∀ l : List α, (l.filterMap f).length = l.length →
      List.Forall₂ (fun a b => f a = some b) l (l.filterMap f)
  | [], _ => .nil
  | a :: l, h => by
    have hle := List.length_filterMap_le f l
    cases ha : f a with
    | none => rw [List.filterMap_cons_none ha] at h; simp only [List.length_cons] at h; omega
    | some b =>
      rw [List.filterMap_cons_some ha] at h ⊢
      exact .cons ha (forall₂_filterMap f l (by simpa using h))

/-- **The path `main` goes on with**: one relay per key of the command line, in order,
each as beldexd returned it. -/
theorem chain_of_buildChain {lookup : Bytes → Option Relay} {ks : List Bytes} {firstIp : Bytes}
    {firstPort : Nat} {chain : List Relay} (h : buildChain lookup ks firstIp firstPort = .ok chain) :
    List.Forall₂ (fun k r => lookup k = some r) ks chain ∧ chain ≠ [] := by
  simp only [buildChain] at h
  split_ifs at h with h1 h2
  cases h
  exact ⟨forall₂_filterMap lookup ks (not_not.mp h1), by simpa using h2⟩

theorem pubkeysHex_ne_nil_of_parseArgs {files : Bytes → Option Bytes} {args : List Bytes}
    {a : Args} (h : parseArgs files args = .ok a) : a.pubkeysHex ≠ [] := by
  simp only [parseArgs] at h
  cases hl : argLoop files (args.length + 1) Args.init 1 args with
  | error e => rw [hl] at h; cases h
  | ok a' =>
    rw [hl, ok_bind] at h
    split_ifs at h with hne
    cases h; exact hne

/-- **`onion_request` always gets a path.** For every answer of beldexd that `main` goes
on with, the path holds one relay per key given, each as beldexd returned it and in the
order given, and `onion_request` builds its onion whatever its random draws. -/
theorem main_onionRequest (cc : ChannelCrypto) (encType : Option EncryptType)
    {lookup : Bytes → Option Relay} {ks : List Bytes} {firstIp : Bytes} {firstPort : Nat}
    {chain : List Relay} (hc : buildChain lookup ks firstIp firstPort = .ok chain)
    (draws : List HopDraw) (hd : chain.length ≤ draws.length) (P C : Bytes) :
    List.Forall₂ (fun k r => lookup k = some r) ks chain ∧
      ∃ req, onionRequest cc encType (chain.zip draws) P C = some req := by
  obtain ⟨hrel, hne⟩ := chain_of_buildChain hc
  refine ⟨hrel, ?_⟩
  obtain ⟨r, rs, rfl⟩ := List.exists_cons_of_ne_nil hne
  obtain ⟨d, ds, rfl⟩ := List.exists_cons_of_ne_nil (l := draws) (by rintro rfl; simp at hd)
  exact ⟨_, onionRequest_eq cc encType P C (r, d) (rs.zip ds)⟩

/-- A relay with all-zero keys. -/
def zeroRelay : Relay := ⟨⟨Key32.zero⟩, ⟨Key32.zero⟩⟩

/-- A draw of the zero key, the first cipher and an empty nonce. -/
def zeroDraw : HopDraw := ⟨⟨Key32.zero⟩, 0, []⟩

theorem main_onionRequest_one_relay :
    buildChain (fun _ => some zeroRelay) [List.replicate 64 (byte '0')] (bytesOf "10.0.0.1")
        22021 = .ok [zeroRelay] ∧
      [zeroRelay].length ≤ [zeroDraw].length ∧
      (List.Forall₂ (fun k r => (fun _ => some zeroRelay : Bytes → Option Relay) k = some r)
          [List.replicate 64 (byte '0')] [zeroRelay] ∧
        ∃ req, onionRequest .cleartext none ([zeroRelay].zip [zeroDraw]) (bytesOf "ping")
          (bytesOf "\x7b\x7d") = some req) := by
  have h : buildChain (fun _ => some zeroRelay) [List.replicate 64 (byte '0')]
      (bytesOf "10.0.0.1") 22021 = .ok [zeroRelay] := rfl
  exact ⟨h, by decide, main_onionRequest .cleartext none h [zeroDraw] (by decide) _ _⟩

/-- **The check `chain.empty()` never fires** after an accepted command line: the
command line names a relay, so the path is either refused as incomplete or nonempty. -/
theorem buildChain_ne_needOneRelay {files : Bytes → Option Bytes} {args : List Bytes} {a : Args}
    (ha : parseArgs files args = .ok a)
    (lookup : Bytes → Option Relay) (firstIp : Bytes) (firstPort : Nat) :
    buildChain lookup a.pubkeysHex firstIp firstPort ≠ .error needOneRelay := by
  have hne := pubkeysHex_ne_nil_of_parseArgs ha
  simp only [buildChain]
  split_ifs with h1 h2 h3
  · exact fun h => absurd (Except.error.inj h) (by decide)
  · have hlen := not_not.mp h1
    rw [List.isEmpty_iff.mp h2, List.length_nil] at hlen
    exact absurd (List.length_eq_zero.mp hlen.symm) hne
  · exact fun h => absurd (Except.error.inj h) (by decide)
  · exact fun h => by cases h

theorem buildChain_ne_needOneRelay_one_relay :
    parseArgs noFiles oneRelayArgs = .ok oneRelayRead ∧
    buildChain (fun _ => none) oneRelayRead.pubkeysHex [] 0 ≠ .error needOneRelay := by
  have h : parseArgs noFiles oneRelayArgs = .ok oneRelayRead := rfl
  exact ⟨h, buildChain_ne_needOneRelay h _ _ _⟩

/-! ## beldexd's answer -/

/-- A record of `master_node_states` in beldexd's answer to `rpc.get_master_nodes`: the
fields `main` asks for, `storage_port` as the number the record holds. -/
structure MnState where
  masterNodePubkey : Bytes
  pubkeyEd25519 : Bytes
  pubkeyX25519 : Bytes
  publicIp : Bytes
  storagePort : Nat

/-- What `main` keeps of beldexd's answer: `aux_keys`, the relay of each legacy key in the
order emplaced, and the first hop's `first_ip` and `first_port`. -/
structure AuxKeys where
  auxKeys : List (Key32 × Relay)
  firstIp : Bytes
  firstPort : Nat

/-- `aux_keys.find`. -/
def AuxKeys.find (a : AuxKeys) (pk : Key32) : Option Relay :=
  (a.auxKeys.find? fun e => e.1 == pk).map Prod.snd

/-- `aux_keys.emplace`: a key already there keeps its relay. -/
def AuxKeys.emplace (a : AuxKeys) (pk : Key32) (r : Relay) : AuxKeys :=
  if (a.find pk).isSome then a else { a with auxKeys := a.auxKeys ++ [(pk, r)] }

/-- The error for a record without ed25519 and x25519 keys of 64 hex digits. -/
def missingEdX (pk : Bytes) : Bytes := pk ++ bytesOf " is missing ed/x25519 pubkeys"

/-- The body of the loop over `master_node_states` (lines 134–146), `front` being
`pubkeys_hex.front()`: the record's keys are checked and emplaced, and the first hop's address
is taken from the record whose key text is `front`.  C++ leaves the order of `emplace`'s
arguments open; the model reads the legacy key first, which only chooses the error printed. -/
def readMnState (front : Bytes) (a : AuxKeys) (mn : MnState) : Except Bytes AuxKeys :=
  if mn.pubkeyEd25519.length ≠ 64 ∨ mn.pubkeyX25519.length ≠ 64 ∨ isHex mn.pubkeyX25519 = false ∨
      isHex mn.pubkeyEd25519 = false then .error (missingEdX mn.masterNodePubkey)
  else do
    let pk ← (Key32.fromHex mn.masterNodePubkey).mapError bytesOf
    let e ← (Key32.fromHex mn.pubkeyEd25519).mapError bytesOf
    let x ← (Key32.fromHex mn.pubkeyX25519).mapError bytesOf
    let a := a.emplace pk ⟨⟨e⟩, ⟨x⟩⟩
    if mn.masterNodePubkey = front then
      pure { a with firstIp := mn.publicIp, firstPort := mn.storagePort % 2 ^ 16 }
    else pure a

/-- `main`'s handler of beldexd's answer (lines 126–150), once beldexd answered `200`: its
records, in order. -/
def readMasterNodes (front : Bytes) (mns : List MnState) : Except Bytes AuxKeys :=
  mns.foldlM (readMnState front) ⟨[], [], 0⟩

/-- `aux_keys.find` of `legacy_pubkey::from_hex` of a key of the command line. -/
def AuxKeys.findHex (a : AuxKeys) (hex : Bytes) : Option Relay :=
  match Key32.fromHex hex with
  | .ok pk => a.find pk
  | .error _ => none

/-- `main` from beldexd's answer to its call of `onion_request` (lines 126–181): the first
hop's address and the path, or the error `main` prints before returning 2. -/
def mainPath (pubkeysHex : List Bytes) (mns : List MnState) :
    Except Bytes (Bytes × Nat × List Relay) := do
  let a ← readMasterNodes (pubkeysHex.headD []) mns
  let chain ← buildChain a.findHex pubkeysHex a.firstIp a.firstPort
  pure (a.firstIp, a.firstPort, chain)

/-- `onion_request` is only called with the first hop's address known. -/
theorem firstHop_of_buildChain {lookup : Bytes → Option Relay} {ks : List Bytes} {firstIp : Bytes}
    {firstPort : Nat} {chain : List Relay} (h : buildChain lookup ks firstIp firstPort = .ok chain) :
    firstIp ≠ [] ∧ firstPort ≠ 0 := by
  simp only [buildChain] at h
  split_ifs at h with _ _ h3
  exact not_or.mp h3

/-- With every relay found, an unknown first hop is the error. -/
theorem buildChain_of_found {lookup : Bytes → Option Relay} {ks : List Bytes} (firstPort : Nat)
    (hks : ks ≠ []) (hf : ∀ k ∈ ks, (lookup k).isSome) :
    buildChain lookup ks [] firstPort = .error missingFirstHop := by
  have hlen : (ks.filterMap lookup).length = ks.length := by
    rw [List.length_filterMap_eq_countP, List.countP_eq_length]
    exact hf
  have hne : (ks.filterMap lookup).isEmpty = false := by
    rw [Bool.eq_false_iff]
    intro he
    rw [List.isEmpty_iff.mp he, List.length_nil] at hlen
    exact hks (List.length_eq_zero.mp hlen.symm)
  simp only [buildChain, hlen, hne, ne_eq, not_true_eq_false, if_false, Bool.false_eq_true,
    true_or, if_true]

/-- How `main` gets to `onion_request`: beldexd's answer was read, and the path built from it. -/
theorem mainPath_cases {ks : List Bytes} {mns : List MnState} {ip : Bytes} {port : Nat}
    {chain : List Relay} (h : mainPath ks mns = .ok (ip, port, chain)) :
    ∃ a, readMasterNodes (ks.headD []) mns = .ok a ∧
      buildChain a.findHex ks a.firstIp a.firstPort = .ok chain ∧ ip = a.firstIp ∧
      port = a.firstPort := by
  simp only [mainPath] at h
  cases ha : readMasterNodes (ks.headD []) mns with
  | error e => rw [ha, error_bind] at h; cases h
  | ok a =>
    rw [ha, ok_bind] at h
    cases hb : buildChain a.findHex ks a.firstIp a.firstPort with
    | error e => rw [hb, error_bind] at h; cases h
    | ok c => rw [hb, ok_bind] at h; cases h; exact ⟨a, rfl, hb, rfl, rfl⟩

theorem AuxKeys.emplace_firstIp (a : AuxKeys) (pk : Key32) (r : Relay) :
    (a.emplace pk r).firstIp = a.firstIp := by
  unfold AuxKeys.emplace; split <;> rfl

theorem AuxKeys.emplace_firstPort (a : AuxKeys) (pk : Key32) (r : Relay) :
    (a.emplace pk r).firstPort = a.firstPort := by
  unfold AuxKeys.emplace; split <;> rfl

/-- `emplace` adds a relay only for a key without one. -/
theorem AuxKeys.find_emplace (a : AuxKeys) (pk : Key32) (r : Relay) (q : Key32) :
    (a.emplace pk r).find q = (a.find q).or (if pk = q then some r else none) := by
  unfold AuxKeys.emplace
  split
  · rename_i hs
    by_cases hq : pk = q
    · subst hq
      obtain ⟨r', hr'⟩ := Option.isSome_iff_exists.mp hs
      rw [hr']; rfl
    · rw [if_neg hq, Option.or_none]
  · rename_i hs
    by_cases hq : pk = q
    · subst hq
      simp only [AuxKeys.find, List.find?_append] at hs ⊢
      rcases hf : a.auxKeys.find? (fun e => e.1 == pk) with _ | y <;> rw [hf] at hs ⊢
      · simp
      · exact absurd rfl hs
    · simp [AuxKeys.find, hq]

theorem foldlM_cons_eq_ok {ε α β : Type} {f : α → β → Except ε α} {b : β} {bs : List β}
    {a₀ a : α} : (b :: bs).foldlM f a₀ = .ok a ↔ ∃ a₁, f a₀ b = .ok a₁ ∧ bs.foldlM f a₁ = .ok a := by
  rw [List.foldlM_cons]
  cases f a₀ b <;> simp

/-- **What one record does**: its three keys are read, its relay is emplaced under its legacy
key, and the first hop's address is taken from it when its key text is `front`. -/
theorem readMnState_ok {front : Bytes} {a a' : AuxKeys} {mn : MnState}
    (h : readMnState front a mn = .ok a') :
    ∃ pk e x, Key32.fromHex mn.masterNodePubkey = .ok pk ∧
      Key32.fromHex mn.pubkeyEd25519 = .ok e ∧ Key32.fromHex mn.pubkeyX25519 = .ok x ∧
      a'.auxKeys = (a.emplace pk ⟨⟨e⟩, ⟨x⟩⟩).auxKeys ∧
      (a'.firstIp, a'.firstPort) = if mn.masterNodePubkey = front
        then (mn.publicIp, mn.storagePort % 2 ^ 16) else (a.firstIp, a.firstPort) := by
  unfold readMnState at h
  split at h
  · cases h
  rcases hpk : Key32.fromHex mn.masterNodePubkey with _ | pk <;> rw [hpk] at h
  · cases h
  rcases he : Key32.fromHex mn.pubkeyEd25519 with _ | e <;> rw [he] at h
  · cases h
  rcases hx : Key32.fromHex mn.pubkeyX25519 with _ | x <;> rw [hx] at h
  · cases h
  refine ⟨pk, e, x, rfl, rfl, rfl, ?_⟩
  split_ifs at h with hf <;> cases h
  · exact ⟨rfl, by rw [if_pos hf]⟩
  · exact ⟨rfl, by rw [if_neg hf, AuxKeys.emplace_firstIp, AuxKeys.emplace_firstPort]⟩

theorem find_of_auxKeys {a a' : AuxKeys} (h : a'.auxKeys = a.auxKeys) : a'.find = a.find := by
  unfold AuxKeys.find; rw [h]

/-- A key with a relay keeps it through the rest of the answer. -/
theorem find_foldlM_of_some {front : Bytes} {q : Key32} {r : Relay} :
    ∀ {mns : List MnState} {a₀ a : AuxKeys}, mns.foldlM (readMnState front) a₀ = .ok a →
      a₀.find q = some r → a.find q = some r
  | [], _, _, h, h0 => by cases h; exact h0
  | _ :: _, a₀, _, h, h0 => by
    obtain ⟨a₁, h₁, h⟩ := foldlM_cons_eq_ok.mp h
    obtain ⟨pk, e, x, -, -, -, hk, -⟩ := readMnState_ok h₁
    refine find_foldlM_of_some h ?_
    rw [find_of_auxKeys hk, AuxKeys.find_emplace, h0]
    rfl

/-- Records of other keys leave a key's relay as it was. -/
theorem find_foldlM_of_ne {front : Bytes} {q : Key32} :
    ∀ {mns : List MnState} {a₀ a : AuxKeys}, mns.foldlM (readMnState front) a₀ = .ok a →
      (∀ mn ∈ mns, Key32.fromHex mn.masterNodePubkey ≠ .ok q) → a.find q = a₀.find q
  | [], _, _, h, _ => by cases h; rfl
  | mn :: _, a₀, _, h, hne => by
    obtain ⟨a₁, h₁, h⟩ := foldlM_cons_eq_ok.mp h
    obtain ⟨pk, e, x, hpk, -, -, hk, -⟩ := readMnState_ok h₁
    have hq : pk ≠ q := fun hq => hne mn (List.mem_cons_self _ _) (hq ▸ hpk)
    rw [find_foldlM_of_ne h fun m hm => hne m (List.mem_cons_of_mem _ hm), find_of_auxKeys hk,
      AuxKeys.find_emplace, if_neg hq, Option.or_none]

/-- Records whose key text is not `front` leave the first hop's address as it was. -/
theorem foldlM_readMnState_first {front : Bytes} :
    ∀ {mns : List MnState} {a₀ a : AuxKeys}, mns.foldlM (readMnState front) a₀ = .ok a →
      (∀ mn ∈ mns, mn.masterNodePubkey ≠ front) →
      a.firstIp = a₀.firstIp ∧ a.firstPort = a₀.firstPort
  | [], _, _, h, _ => by cases h; exact ⟨rfl, rfl⟩
  | mn :: _, _, _, h, hne => by
    obtain ⟨a₁, h₁, h⟩ := foldlM_cons_eq_ok.mp h
    obtain ⟨-, -, -, -, -, -, -, hf⟩ := readMnState_ok h₁
    rw [if_neg (hne mn (List.mem_cons_self _ _)), Prod.mk.injEq] at hf
    obtain ⟨hi, hp⟩ := foldlM_readMnState_first h fun m hm => hne m (List.mem_cons_of_mem _ hm)
    exact ⟨hi.trans hf.1, hp.trans hf.2⟩

/-- Without a record whose key text is `front`, the first hop's address stays unknown. -/
theorem readMasterNodes_first {front : Bytes} {mns : List MnState} {a : AuxKeys}
    (h : readMasterNodes front mns = .ok a) (hne : ∀ mn ∈ mns, mn.masterNodePubkey ≠ front) :
    a.firstIp = [] ∧ a.firstPort = 0 :=
  foldlM_readMnState_first h hne

/-- **A first relay spelt in upper case is refused.**  `main` accepts relay keys in either
case, and looks relays up by their keys, whatever the case; but it takes the first hop's
address from the record whose key text equals the first key on the command line.  beldexd
writes keys in lower case, so with an upper-case letter in the first key `main` never calls
`onion_request`: when every relay is found, it stops with "Missing IP/port of first hop". -/
theorem mainPath_upper_front {front : Bytes} (rest : List Bytes) {mns : List MnState}
    (hup : front.map asciiLower ≠ front)
    (hlow : ∀ mn ∈ mns, mn.masterNodePubkey.map asciiLower = mn.masterNodePubkey) :
    (∀ p, mainPath (front :: rest) mns ≠ .ok p) ∧
      ∀ a, readMasterNodes front mns = .ok a →
        (∀ hex ∈ front :: rest, (a.findHex hex).isSome) →
        mainPath (front :: rest) mns = .error missingFirstHop := by
  have hne : ∀ mn ∈ mns, mn.masterNodePubkey ≠ front := fun mn hmn he =>
    hup (he ▸ hlow mn hmn)
  refine ⟨fun ⟨ip, port, chain⟩ h => ?_, fun a ha hfound => ?_⟩
  · obtain ⟨a, ha, hb, -⟩ := mainPath_cases h
    exact (firstHop_of_buildChain hb).1 (readMasterNodes_first ha hne).1
  · obtain ⟨hi, hp⟩ := readMasterNodes_first ha hne
    simp only [mainPath, List.headD_cons, ha, ok_bind, hi, hp,
      buildChain_of_found 0 (List.cons_ne_nil _ _) hfound, error_bind]


/-- beldexd's record of the relay whose three keys are all `aa` bytes. -/
def aaRecord : MnState :=
  ⟨List.replicate 64 (byte 'a'), List.replicate 64 (byte 'a'), List.replicate 64 (byte 'a'),
    bytesOf "10.0.0.1", 22021⟩

/-- Its legacy key with the first digit in upper case. -/
def upperAa : Bytes := byte 'A' :: List.replicate 63 (byte 'a')

theorem mainPath_upper_front_aa :
    upperAa.map asciiLower ≠ upperAa ∧
      (∀ mn ∈ [aaRecord], mn.masterNodePubkey.map asciiLower = mn.masterNodePubkey) ∧
      mainPath [upperAa] [aaRecord] = .error missingFirstHop ∧
      ∃ p, mainPath [aaRecord.masterNodePubkey] [aaRecord] = .ok p := by
  have hup : upperAa.map asciiLower ≠ upperAa := by decide
  have hlow : ∀ mn ∈ [aaRecord], mn.masterNodePubkey.map asciiLower = mn.masterNodePubkey := by
    decide
  exact ⟨hup, hlow, (mainPath_upper_front [] hup hlow).2 _ rfl (by decide), _, rfl⟩

/-- **A relay repeated in beldexd's answer.**  The relay `main` keeps for a key is that of the
first record with that key, since `emplace` keeps what is there; the first hop's address is
that of the last record whose key text is the first key, since each such record overwrites
`first_ip` and `first_port`.  A key repeated with other data thus gives a path through the
first record's keys to the last record's address. -/
theorem readMasterNodes_repeated {front : Bytes} {mns : List MnState} {a : AuxKeys}
    (h : readMasterNodes front mns = .ok a) {pre post : List MnState} {mn : MnState}
    (hmns : mns = pre ++ mn :: post) :
    (∀ pk, Key32.fromHex mn.masterNodePubkey = .ok pk →
      (∀ m ∈ pre, Key32.fromHex m.masterNodePubkey ≠ .ok pk) →
      ∃ e x, Key32.fromHex mn.pubkeyEd25519 = .ok e ∧ Key32.fromHex mn.pubkeyX25519 = .ok x ∧
        a.find pk = some ⟨⟨e⟩, ⟨x⟩⟩) ∧
    (mn.masterNodePubkey = front → (∀ m ∈ post, m.masterNodePubkey ≠ front) →
      a.firstIp = mn.publicIp ∧ a.firstPort = mn.storagePort % 2 ^ 16) := by
  subst hmns
  unfold readMasterNodes at h
  rw [List.foldlM_append] at h
  rcases hpre : pre.foldlM (readMnState front) ⟨[], [], 0⟩ with _ | a₁ <;> rw [hpre] at h
  · cases h
  obtain ⟨a₂, h₂, hpost⟩ := foldlM_cons_eq_ok.mp h
  obtain ⟨pk, e, x, hpk, he, hx, hk, hf⟩ := readMnState_ok h₂
  refine ⟨fun pk' hpk' hne => ⟨e, x, he, hx, find_foldlM_of_some hpost ?_⟩, fun hfront hne => ?_⟩
  · obtain rfl : pk = pk' := Except.ok.inj (hpk.symm.trans hpk')
    rw [find_of_auxKeys hk, AuxKeys.find_emplace, find_foldlM_of_ne hpre hne, if_pos rfl]
    rfl
  · rw [if_pos hfront, Prod.mk.injEq] at hf
    obtain ⟨hi, hp⟩ := foldlM_readMnState_first hpost hne
    exact ⟨hi.trans hf.1, hp.trans hf.2⟩

/-- beldexd's record of the relay `aaRecord`, with its ed25519 key all `bb` bytes and another
address. -/
def aaRecordAgain : MnState :=
  ⟨List.replicate 64 (byte 'a'), List.replicate 64 (byte 'b'), List.replicate 64 (byte 'a'),
    bytesOf "10.0.0.2", 22022⟩

/-- For beldexd's answer `[aaRecord, aaRecordAgain]`, both parts at once: the relay of the key
is the first record's, and the first hop's address the second's. -/
theorem readMasterNodes_repeated_aa :
    ∃ a pk, readMasterNodes aaRecord.masterNodePubkey [aaRecord, aaRecordAgain] = .ok a ∧
      Key32.fromHex aaRecord.masterNodePubkey = .ok pk ∧
      (∃ e x, Key32.fromHex aaRecord.pubkeyEd25519 = .ok e ∧
        Key32.fromHex aaRecord.pubkeyX25519 = .ok x ∧ a.find pk = some ⟨⟨e⟩, ⟨x⟩⟩) ∧
      a.firstIp = aaRecordAgain.publicIp ∧ a.firstPort = aaRecordAgain.storagePort % 2 ^ 16 := by
  obtain ⟨a, ha⟩ : ∃ a, readMasterNodes aaRecord.masterNodePubkey [aaRecord, aaRecordAgain] =
    .ok a := ⟨_, rfl⟩
  obtain ⟨pk, hpk⟩ : ∃ pk, Key32.fromHex aaRecord.masterNodePubkey = .ok pk := ⟨_, rfl⟩
  exact ⟨a, pk, ha, hpk,
    (readMasterNodes_repeated ha
      (show [aaRecord, aaRecordAgain] = [] ++ aaRecord :: [aaRecordAgain] from rfl)).1 pk hpk
      (by simp),
    (readMasterNodes_repeated ha
      (show [aaRecord, aaRecordAgain] = [aaRecord] ++ aaRecordAgain :: [] from rfl)).2 rfl
      (by simp)⟩

example : (mainPath [aaRecord.masterNodePubkey] [aaRecord, aaRecordAgain]).map
      (fun p => (p.1, p.2.1, p.2.2.map fun r => r.ed.key.bytes)) =
    .ok (bytesOf "10.0.0.2", 22022, [List.replicate 32 0xaa]) := rfl

end Beldex
