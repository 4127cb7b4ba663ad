import BeldexStorage.Onion.ChannelCrypto

/-! # The onion tool's command line

`main` in `contrib/onion-request.cpp` reads its arguments in one loop.  The six options
set the beldexd address and the cipher wherever they stand; the last two other
arguments are PAYLOAD and CONTROL, refused when they look like hex (taken for a relay
key given in their place) and read from a file when they start with `@`; every other
argument must be a relay key of 64 hex digits.  With no relay key, `main` prints its usage.

The files are what the world answers (`files path`, `none` when `std::ifstream` cannot open
`path`): the stream throws on a failed open, and no `catch` of `main` surrounds the loop, so
the exception ends the process before the later arguments are looked at.

`parseArgs_eq` says what the loop computes for every argument list: the first refused
relay key, else PAYLOAD and then CONTROL as `trailingValue` reads them (a hex one refused,
a file one read), else the arguments as `readArgs` reads them, where only the non-option
arguments before the last two are keys and the last option of each kind wins.
-/
namespace Beldex
open Bmq

/-! ### What the loop sets -/

/-- `TESTNET_BMQ` and `MAINNET_BMQ`, the beldexd `main` asks for the relays' keys. -/
inductive BmqAddr
  | testnet
  | mainnet
  deriving DecidableEq

/-- Why `main` stops in its loop: `usage(argv[0], err)`, which exits with code 1 (an empty
`err` prints the usage alone), or the `std::ios_base::failure` of a PAYLOAD or CONTROL
`@path` whose file cannot be opened, which leaves `main`. -/
inductive ArgError
  | usage (err : Bytes)
  | unreadable (path : Bytes)
  deriving DecidableEq

/-- The variables of `main` that its loop sets.  `pubkeys`, `legacy_pubkey::from_hex` of
each of `pubkeys_hex`, is left out. -/
structure Args where
  bmqAddr : BmqAddr
  encType : Option EncryptType
  pubkeysHex : List Bytes
  payload : Bytes
  control : Bytes
  deriving DecidableEq

/-- The variables before the loop. -/
def Args.init : Args := ⟨.testnet, some .xchacha20, [], [], []⟩

/-- What one of `main`'s options sets: the beldexd address or the cipher choice
(`none` is `std::nullopt`, a random cipher for each layer). -/
inductive CliOption
  | net (addr : BmqAddr)
  | enc (encType : Option EncryptType)

/-- The six options, in the order `main`'s loop tests them. -/
def cliOptions : List (Bytes × CliOption) :=
  [(bytesOf "--mainnet", .net .mainnet), (bytesOf "--testnet", .net .testnet),
    (bytesOf "--xchacha20", .enc (some .xchacha20)), (bytesOf "--aes-gcm", .enc (some .aesGcm)),
    (bytesOf "--aes-cbc", .enc (some .aesCbc)), (bytesOf "--random", .enc none)]

/-- The option an argument is, if any: the first of the six it equals. -/
def cliOption (arg : Bytes) : Option CliOption :=
  (cliOptions.find? fun o => o.1 == arg).map Prod.snd

/-- The assignment an option makes before it `continue`s. -/
def CliOption.apply : CliOption → Args → Args
  | .net n, a => { a with bmqAddr := n }
  | .enc e, a => { a with encType := e }

/-- The network an argument selects, if it is `--mainnet` or `--testnet`. -/
def netOption (arg : Bytes) : Option BmqAddr :=
  match cliOption arg with
  | some (.net n) => some n
  | _ => none

/-- The cipher choice an argument selects, if it is a cipher option. -/
def encOption (arg : Bytes) : Option (Option EncryptType) :=
  match cliOption arg with
  | some (.enc e) => some e
  | _ => none

/-- Whether `arg` is one of the six options. -/
def isOption (arg : Bytes) : Bool := (cliOption arg).isSome

/-- The loop's `hex`: a nonempty hex string. -/
def hexArg (arg : Bytes) : Bool := decide (arg.length > 0) && isHex arg

/-- `var = arg`, then, for an argument starting with `@`, the whole contents of the file
named by the rest (lines 98–106); `files path` is `none` when the file cannot be opened. -/
def argValue (files : Bytes → Option Bytes) (arg : Bytes) : Except ArgError Bytes :=
  match arg with
  | c :: path =>
    if c = byte '@' then
      match files path with
      | some contents => .ok contents
      | none => .error (.unreadable path)
    else .ok arg
  | [] => .ok []

/-- The error of `usage` for a hex string where PAYLOAD or CONTROL should be. -/
def missingPayload : Bytes := bytesOf "Missing PAYLOAD and CONTROL values"

/-- The error of `usage` for a relay key that is not 64 hex digits. -/
def invalidPubkey (arg : Bytes) : Bytes := bytesOf "Invalid pubkey '" ++ arg ++ bytesOf "'"

/-! ### The loop -/

/-- One iteration of `main`'s loop, on `argv[i]` of `argc` arguments. -/
def argStep (files : Bytes → Option Bytes) (argc : Nat) (a : Args) (i : Nat) (arg : Bytes) :
    Except ArgError Args :=
  match cliOption arg with
  | some o => .ok (o.apply a)
  | none =>
    let hex := hexArg arg
    if i ≥ argc - 2 then
      if hex then .error (.usage missingPayload)
      else (argValue files arg).map fun v =>
        if i = argc - 2 then { a with payload := v } else { a with control := v }
    else if !(hex && arg.length == 64) then .error (.usage (invalidPubkey arg))
    else .ok { a with pubkeysHex := a.pubkeysHex ++ [arg] }

/-- The loop from `argv[i]` on. -/
def argLoop (files : Bytes → Option Bytes) (argc : Nat) : Args → Nat → List Bytes →
    Except ArgError Args
  | a, _, [] => .ok a
  | a, i, arg :: rest =>
    argStep files argc a i arg >>= fun a' => argLoop files argc a' (i + 1) rest

/-- `main` up to its request to beldexd, on `argv` after `argv[0]`, with the files the world
holds. -/
def parseArgs (files : Bytes → Option Bytes) (args : List Bytes) : Except ArgError Args := do
  let a ← argLoop files (args.length + 1) Args.init 1 args
  if a.pubkeysHex = [] then .error (.usage []) else .ok a

/-! ### What the loop reads -/

/-- An argument `main` refuses where a relay key should be. -/
def badPubkeyArg (arg : Bytes) : Bool := !isOption arg && !(arg.length == 64 && isHex arg)

/-- What an argument in PAYLOAD's or CONTROL's place gives its variable: nothing for an
option, which sets its own variable; a refusal for hex text; else `argValue`. -/
def trailingValue (files : Bytes → Option Bytes) (x : Bytes) : Except ArgError (Option Bytes) :=
  if isOption x then .ok none
  else if hexArg x then .error (.usage missingPayload)
  else (argValue files x).map some

/-- What `main` reads from the arguments `ks ++ [p, c]`, PAYLOAD and CONTROL giving `vp` and
`vc`: the non-option arguments before the last two are the relays' keys, the last option of
each kind wins, and PAYLOAD and CONTROL stay empty when they are options. -/
def readArgs (ks : List Bytes) (p c : Bytes) (vp vc : Option Bytes) : Args where
  bmqAddr := ((ks ++ [p, c]).filterMap netOption).getLast?.getD .testnet
  encType := ((ks ++ [p, c]).filterMap encOption).getLast?.getD (some .xchacha20)
  pubkeysHex := ks.filter fun k => !isOption k
  payload := vp.getD []
  control := vc.getD []

/-! ### Options -/

theorem hexArg_of_head_dash {arg : Bytes} (h : arg.head? = some (byte '-')) :
    hexArg arg = false := by
  match arg, h with
  | _ :: _, h =>
    obtain rfl := Option.some.inj h
    have hd : isHexDigit (byte '-') = false := by decide
    simp [hexArg, isHex, hd]

theorem head_cliOptions : ∀ o ∈ cliOptions, o.1.head? = some (byte '-') := by decide

theorem head_of_cliOption {arg : Bytes} {o : CliOption} (h : cliOption arg = some o) :
    arg.head? = some (byte '-') := by
  obtain ⟨p, hp, -⟩ := Option.map_eq_some'.mp h
  have he : p.1 = arg :=
    beq_iff_eq.mp (List.find?_some (p := fun o : Bytes × CliOption => o.1 == arg) hp)
  exact he ▸ head_cliOptions p (List.mem_of_find?_eq_some hp)

/-- No option is hex text: they all start with `-`. -/
theorem hexArg_of_cliOption {arg : Bytes} {o : CliOption} (h : cliOption arg = some o) :
    hexArg arg = false :=
  hexArg_of_head_dash (head_of_cliOption h)

theorem isOption_of_head {arg : Bytes} (h : arg.head? ≠ some (byte '-')) :
    isOption arg = false := by
  rcases ho : cliOption arg with _ | o
  · simp [isOption, ho]
  · exact absurd (head_of_cliOption ho) h

/-- The variables after the arguments `ks` before PAYLOAD and CONTROL are read without
error. -/
def readKeys (a : Args) (ks : List Bytes) : Args :=
  { a with
    bmqAddr := (ks.filterMap netOption).getLast?.getD a.bmqAddr
    encType := (ks.filterMap encOption).getLast?.getD a.encType
    pubkeysHex := a.pubkeysHex ++ ks.filter fun k => !isOption k }

theorem getLast?_filterMap_append {α β : Type} (f : α → Option β) (xs ys : List α) (d : β) :
    ((xs ++ ys).filterMap f).getLast?.getD d =
      (ys.filterMap f).getLast?.getD ((xs.filterMap f).getLast?.getD d) := by
  rw [List.filterMap_append, List.getLast?_append]
  cases (ys.filterMap f).getLast? <;> rfl

theorem readKeys_append (a : Args) (xs ys : List Bytes) :
    readKeys (readKeys a xs) ys = readKeys a (xs ++ ys) := by
  simp only [readKeys, getLast?_filterMap_append, List.filter_append, List.append_assoc]

@[simp] theorem readKeys_nil (a : Args) : readKeys a [] = a := by
  simp [readKeys]

/-! ### One argument at a time -/

section Files
variable (files : Bytes → Option Bytes)

/-- An argument before PAYLOAD and CONTROL: an option, or a relay key that must be 64 hex
digits. -/
theorem argStep_key {argc i : Nat} (h : i < argc - 2) (a : Args) (k : Bytes) :
    argStep files argc a i k =
      if badPubkeyArg k then .error (.usage (invalidPubkey k)) else .ok (readKeys a [k]) := by
  rcases ho : cliOption k with _ | ⟨n⟩ | ⟨e⟩
  · have hlt : ¬i ≥ argc - 2 := by omega
    simp only [argStep, ho, hlt, if_false, badPubkeyArg, isOption, hexArg, readKeys,
      Option.isSome_none, netOption, encOption, List.filterMap_cons, List.filterMap_nil,
      List.getLast?_nil, Option.getD_none, List.filter_cons, List.filter_nil]
    by_cases hl : k.length = 64 <;> simp [hl]
  all_goals simp [argStep, ho, badPubkeyArg, isOption, readKeys, netOption, encOption,
    CliOption.apply]

theorem argLoop_append (argc : Nat) : ∀ (xs ys : List Bytes) (a : Args) (i : Nat),
    argLoop files argc a i (xs ++ ys) =
      argLoop files argc a i xs >>= fun a' => argLoop files argc a' (i + xs.length) ys
  | [], ys, a, i => rfl
  | x :: xs, ys, a, i => by
    show argStep files argc a i x >>= (fun a' => argLoop files argc a' (i + 1) (xs ++ ys)) = _
    simp only [argLoop_append argc xs ys, argLoop, bind_assoc, List.length_cons,
      show i + (xs.length + 1) = i + 1 + xs.length by omega]

/-- **The arguments before PAYLOAD and CONTROL.** The loop stops at the first refused
relay key; otherwise it reads them all as `readKeys` says. -/
theorem argLoop_keys (argc : Nat) : ∀ (ks : List Bytes) (a : Args) (i : Nat),
    i + ks.length ≤ argc - 2 →
      argLoop files argc a i ks =
        match ks.find? badPubkeyArg with
        | some k => .error (.usage (invalidPubkey k))
        | none => .ok (readKeys a ks)
  | [], a, i, _ => by simp [argLoop]
  | k :: ks, a, i, h => by
    rw [argLoop, argStep_key files (by simp only [List.length_cons] at h; omega)]
    by_cases hb : badPubkeyArg k
    · rw [if_pos hb, List.find?_cons_of_pos _ hb]; rfl
    · rw [if_neg hb, List.find?_cons_of_neg _ hb]
      show argLoop files argc (readKeys a [k]) (i + 1) ks = _
      rw [argLoop_keys argc ks _ (i + 1) (by simp only [List.length_cons] at h; omega)]
      simp only [readKeys_append, List.singleton_append]

/-- The variables after `x`, in PAYLOAD's place (`isPayload`) or CONTROL's, is read
without error, giving its variable `v`: an option sets its variable, any other argument the
variable of its place. -/
def readTrailing (isPayload : Bool) (a : Args) (x : Bytes) (v : Option Bytes) : Args :=
  { a with
    bmqAddr := ([x].filterMap netOption).getLast?.getD a.bmqAddr
    encType := ([x].filterMap encOption).getLast?.getD a.encType
    payload := if isPayload then v.getD a.payload else a.payload
    control := if isPayload then a.control else v.getD a.control }

/-- PAYLOAD or CONTROL: an option is still an option, hex text is refused, and a file is
read. -/
theorem argStep_trailing {argc i : Nat} (h : argc - 2 ≤ i) (a : Args) (x : Bytes) :
    argStep files argc a i x =
      (trailingValue files x).map (readTrailing (i = argc - 2) a x) := by
  rcases ho : cliOption x with _ | ⟨n⟩ | ⟨e⟩
  · have hopt : isOption x = false := by simp [isOption, ho]
    by_cases hx : hexArg x
    · simp [argStep, trailingValue, ho, h, hx, hopt, Except.map]
    · cases hv : argValue files x <;> by_cases hi : i = argc - 2 <;>
        simp [argStep, trailingValue, ho, h, hx, hv, hi, hopt, Except.map, readTrailing,
          netOption, encOption]
  all_goals simp [argStep, trailingValue, ho, isOption, Except.map, readTrailing, netOption,
    encOption, CliOption.apply]

/-- **PAYLOAD and CONTROL**, the last two arguments, read in that order. -/
theorem argLoop_trailing (argc : Nat) (a : Args) (p c : Bytes) :
    argLoop files argc a (argc - 2) [p, c] =
      trailingValue files p >>= fun vp =>
        (trailingValue files c).map (readTrailing false (readTrailing true a p vp) c) := by
  have hc : ¬argc - 2 + 1 = argc - 2 := by omega
  simp only [argLoop, argStep_trailing files (le_refl _), argStep_trailing files (Nat.le_succ _),
    hc, decide_True, decide_False]
  cases trailingValue files p <;> cases trailingValue files c <;> rfl

theorem readTrailing_readKeys (ks : List Bytes) (p c : Bytes) (vp vc : Option Bytes) :
    readTrailing false (readTrailing true (readKeys Args.init ks) p vp) c vc =
      readArgs ks p c vp vc := by
  have hsplit : ks ++ [p, c] = ks ++ [p] ++ [c] := by simp
  simp only [readTrailing, readKeys, readArgs, hsplit, getLast?_filterMap_append]
  rfl

/-- **What `main` reads from its arguments.** For every list of arguments ending in `p`
and `c`: the first argument before them that is neither an option nor 64 hex digits is
refused; else PAYLOAD and then CONTROL are read as `trailingValue` says, each refused when
hex and read from its file when it names one; else the arguments are read as `readArgs` says,
and the usage is printed when they hold no relay key. -/
theorem parseArgs_eq (ks : List Bytes) (p c : Bytes) :
    parseArgs files (ks ++ [p, c]) =
      match ks.find? badPubkeyArg with
      | some k => .error (.usage (invalidPubkey k))
      | none =>
        trailingValue files p >>= fun vp => trailingValue files c >>= fun vc =>
          if (readArgs ks p c vp vc).pubkeysHex = [] then .error (.usage [])
          else .ok (readArgs ks p c vp vc) := by
  have hargc : (ks ++ [p, c]).length + 1 - 2 = 1 + ks.length := by simp; omega
  rw [parseArgs, argLoop_append, bind_assoc, argLoop_keys _ _ ks _ 1 (by omega)]
  cases ks.find? badPubkeyArg with
  | some k => rfl
  | none =>
    rw [ok_bind, ← hargc, argLoop_trailing]
    cases trailingValue files p <;> cases trailingValue files c <;>
      simp only [ok_bind, error_bind, Except.map, readTrailing_readKeys]

theorem parseArgs_singleton (x : Bytes) :
    parseArgs files [x] = trailingValue files x >>= fun _ => .error (.usage []) := by
  simp only [parseArgs, List.length_singleton, argLoop,
    argStep_trailing files (show 1 + 1 - 2 ≤ 1 by omega)]
  cases trailingValue files x <;> rfl

/-- A PAYLOAD or CONTROL that is hex text is refused, whatever it stands for. -/
theorem trailingValue_of_hex {x : Bytes} (h : hexArg x = true) :
    trailingValue files x = .error (.usage missingPayload) := by
  have hopt : isOption x = false := by
    rcases ho : cliOption x with _ | o
    · simp [isOption, ho]
    · simp [hexArg_of_cliOption ho] at h
  simp [trailingValue, hopt, h]

/-- A PAYLOAD or CONTROL `@path` is the contents of the file, whatever they are. -/
theorem trailingValue_file (path : Bytes) :
    trailingValue files (byte '@' :: path) =
      match files path with
      | some s => .ok (some s)
      | none => .error (.unreadable path) := by
  have hopt : isOption (byte '@' :: path) = false :=
    isOption_of_head (by rw [List.head?_cons]; decide)
  have hhex : hexArg (byte '@' :: path) = false := by
    have : isHexDigit (byte '@') = false := by decide
    simp [hexArg, isHex, this]
  simp only [trailingValue, hopt, hhex, argValue, if_true, Bool.false_eq_true, if_false]
  cases files path <;> rfl

theorem argValue_error {x : Bytes} {e : ArgError} (h : argValue files x = .error e) :
    ∃ path, e = .unreadable path ∧ files path = none ∧ x = byte '@' :: path := by
  match x, h with
  | c :: path, h =>
    by_cases hc : c = byte '@'
    · subst hc
      rcases hf : files path with _ | s <;> simp [argValue, hf] at h
      exact ⟨path, h.symm, hf, rfl⟩
    · simp [argValue, hc] at h

theorem trailingValue_error {x : Bytes} {e : ArgError} (h : trailingValue files x = .error e) :
    e = .usage missingPayload ∨ ∃ path, e = .unreadable path ∧ files path = none ∧
      x = byte '@' :: path := by
  unfold trailingValue at h
  split_ifs at h
  · cases h; exact .inl rfl
  rcases hv : argValue files x with e' | v <;> simp [hv, Except.map] at h
  exact .inr (h ▸ argValue_error files hv)

end Files

theorem exists_eq_append_pair {l : List Bytes} (h : 2 ≤ l.length) :
    ∃ ks p c, l = ks ++ [p, c] := by
  rcases List.eq_nil_or_concat l with rfl | ⟨l', c, rfl⟩
  · simp at h
  rcases List.eq_nil_or_concat l' with rfl | ⟨ks, p, rfl⟩
  · simp at h
  exact ⟨ks, p, c, by simp⟩

/-! ### What `main` accepts and what it refuses -/

/-- **What `main` accepts.** Whatever arguments it accepts end in PAYLOAD and CONTROL,
are read as `readArgs` says, with PAYLOAD and CONTROL as `trailingValue` reads them, and name
at least one relay, each by 64 hex digits. -/
theorem parseArgs_ok {files : Bytes → Option Bytes} {args : List Bytes} {a : Args}
    (h : parseArgs files args = .ok a) :
    ∃ ks p c vp vc, args = ks ++ [p, c] ∧ trailingValue files p = .ok vp ∧
      trailingValue files c = .ok vc ∧ a = readArgs ks p c vp vc ∧ a.pubkeysHex ≠ [] ∧
      ∀ k ∈ a.pubkeysHex, k.length = 64 ∧ isHex k = true := by
  have h2 : 2 ≤ args.length := by
    match args, h with
    | [], h => cases h
    | [x], h =>
      rw [parseArgs_singleton] at h
      rcases hx : trailingValue files x with _ | _ <;> rw [hx] at h <;> cases h
    | _ :: _ :: _, _ => simp
  obtain ⟨ks, p, c, rfl⟩ := exists_eq_append_pair h2
  rw [parseArgs_eq] at h
  cases hf : ks.find? badPubkeyArg with
  | some k => rw [hf] at h; cases h
  | none =>
    rw [hf] at h
    rcases hp : trailingValue files p with _ | vp <;> rw [hp] at h
    · cases h
    rcases hc : trailingValue files c with _ | vc <;> rw [ok_bind, hc] at h
    · cases h
    rw [ok_bind] at h
    split_ifs at h with hk
    cases h
    refine ⟨ks, p, c, vp, vc, rfl, hp, hc, rfl, hk, fun k hk' => ?_⟩
    obtain ⟨hmem, hopt⟩ := List.mem_filter.mp hk'
    have := List.find?_eq_none.mp hf k hmem
    simp_all [badPubkeyArg]

/-- A world with no file to read. -/
def noFiles : Bytes → Option Bytes := fun _ => none

/-- One relay key of 64 hex digits `0`, PAYLOAD `ping` and CONTROL `{}`. -/
def oneRelayArgs : List Bytes := [List.replicate 64 (byte '0'), bytesOf "ping", bytesOf "\x7b\x7d"]

/-- What `main` reads from `oneRelayArgs`. -/
def oneRelayRead : Args :=
  readArgs [List.replicate 64 (byte '0')] (bytesOf "ping") (bytesOf "\x7b\x7d")
    (some (bytesOf "ping")) (some (bytesOf "\x7b\x7d"))

theorem parseArgs_ok_one_relay :
    parseArgs noFiles oneRelayArgs = .ok oneRelayRead ∧
    ∃ ks p c vp vc, oneRelayArgs = ks ++ [p, c] ∧ trailingValue noFiles p = .ok vp ∧
      trailingValue noFiles c = .ok vc ∧ oneRelayRead = readArgs ks p c vp vc ∧
      oneRelayRead.pubkeysHex ≠ [] ∧
      ∀ k ∈ oneRelayRead.pubkeysHex, k.length = 64 ∧ isHex k = true :=
  ⟨rfl, parseArgs_ok rfl⟩

/-- **Hex is refused inline, read from a file.** With every relay key before them valid, a
PAYLOAD that is hex text, such as `00`, is refused as if PAYLOAD and CONTROL were missing,
and so is a hex CONTROL once PAYLOAD was read; a PAYLOAD `@path` is the contents of the file,
whatever they are, so hex data is sent through a file, and a file that cannot be opened ends
`main` whatever CONTROL is. -/
theorem parseArgs_hex_payload (files : Bytes → Option Bytes) {ks : List Bytes}
    (hks : ks.find? badPubkeyArg = none) (p c : Bytes) :
    (hexArg p = true → parseArgs files (ks ++ [p, c]) = .error (.usage missingPayload)) ∧
    (∀ vp, trailingValue files p = .ok vp → hexArg c = true →
      parseArgs files (ks ++ [p, c]) = .error (.usage missingPayload)) ∧
    (∀ path, p = byte '@' :: path → files path = none →
      parseArgs files (ks ++ [p, c]) = .error (.unreadable path)) ∧
    (∀ path s, p = byte '@' :: path → files path = some s →
      (∃ vc, trailingValue files c = .ok vc) → (ks.filter fun k => !isOption k) ≠ [] →
      ∃ a, parseArgs files (ks ++ [p, c]) = .ok a ∧ a.payload = s) := by
  simp only [parseArgs_eq, hks]
  refine ⟨fun hp => by rw [trailingValue_of_hex files hp]; rfl,
    fun vp hvp hc => by rw [hvp, ok_bind, trailingValue_of_hex files hc]; rfl,
    fun path hp hf => by rw [hp, trailingValue_file, hf]; rfl,
    fun path s hp hf ⟨vc, hvc⟩ hne => ?_⟩
  rw [hp, trailingValue_file, hf, ok_bind, hvc, ok_bind]
  exact ⟨_, if_neg hne, rfl⟩

theorem parseArgs_hex_payload_zero :
    [List.replicate 64 (byte '0')].find? badPubkeyArg = none ∧
      parseArgs noFiles ([List.replicate 64 (byte '0')] ++ [bytesOf "00", bytesOf "\x7b\x7d"]) =
        .error (.usage missingPayload) ∧
      parseArgs noFiles ([List.replicate 64 (byte '0')] ++ [bytesOf "@payload", bytesOf "00"]) =
        .error (.unreadable (bytesOf "payload")) ∧
      ∃ a, parseArgs (fun _ => some (bytesOf "00"))
        ([List.replicate 64 (byte '0')] ++ [bytesOf "@payload", bytesOf "\x7b\x7d"]) = .ok a ∧
        a.payload = bytesOf "00" := by
  have hks : [List.replicate 64 (byte '0')].find? badPubkeyArg = none := by decide
  exact ⟨hks, (parseArgs_hex_payload noFiles hks _ _).1 (by decide),
    (parseArgs_hex_payload noFiles hks _ _).2.2.1 _ rfl rfl,
    (parseArgs_hex_payload _ hks _ _).2.2.2 _ _ rfl rfl ⟨_, rfl⟩ (by decide)⟩

/-- **Every refusal says why**: the usage alone when no relay key is given, the message
for a hex PAYLOAD or CONTROL, or the message naming the first argument before them that
is neither an option nor 64 hex digits; and the exception that ends `main` names the file of
an `@` argument that cannot be opened. -/
theorem parseArgs_error {files : Bytes → Option Bytes} {args : List Bytes} {e : ArgError}
    (h : parseArgs files args = .error e) :
    (∃ err, e = .usage err ∧ (err = [] ∨ err = missingPayload ∨
      ∃ k ∈ args, badPubkeyArg k = true ∧ err = invalidPubkey k)) ∨
    ∃ path, e = .unreadable path ∧ files path = none ∧ byte '@' :: path ∈ args := by
  have htv : ∀ x, x ∈ args → ∀ e, trailingValue files x = .error e →
      (∃ err, e = .usage err ∧ (err = [] ∨ err = missingPayload ∨
        ∃ k ∈ args, badPubkeyArg k = true ∧ err = invalidPubkey k)) ∨
      ∃ path, e = .unreadable path ∧ files path = none ∧ byte '@' :: path ∈ args :=
    fun x hx e he => by
      rcases trailingValue_error files he with rfl | ⟨path, rfl, hf, rfl⟩
      exacts [.inl ⟨_, rfl, .inr (.inl rfl)⟩, .inr ⟨path, rfl, hf, hx⟩]
  match args, h with
  | [], h => cases h; exact .inl ⟨_, rfl, .inl rfl⟩
  | [x], h =>
    rw [parseArgs_singleton] at h
    rcases hx : trailingValue files x with e' | _ <;> rw [hx] at h <;> cases h
    · exact htv x (List.mem_singleton_self x) _ hx
    · exact .inl ⟨_, rfl, .inl rfl⟩
  | y :: z :: rest, h =>
    obtain ⟨ks, p, c, hl⟩ := exists_eq_append_pair (l := y :: z :: rest) (by simp)
    rw [hl] at h htv ⊢
    rw [parseArgs_eq] at h
    cases hf : ks.find? badPubkeyArg with
    | some k =>
      rw [hf] at h; cases h
      exact .inl ⟨_, rfl, .inr (.inr ⟨k, by simp [List.mem_of_find?_eq_some hf],
        List.find?_some hf, rfl⟩)⟩
    | none =>
      rw [hf] at h
      rcases hp : trailingValue files p with e' | vp <;> rw [hp] at h
      · cases h; exact htv p (by simp) _ hp
      rcases hc : trailingValue files c with e' | vc <;> rw [ok_bind, hc] at h
      · cases h; exact htv c (by simp) _ hc
      rw [ok_bind] at h
      split_ifs at h
      cases h
      exact .inl ⟨_, rfl, .inl rfl⟩

theorem parseArgs_error_unknown_option :
    parseArgs noFiles (bytesOf "--verbose" :: oneRelayArgs) =
        .error (.usage (invalidPubkey (bytesOf "--verbose"))) ∧
      ((∃ err, ArgError.usage (invalidPubkey (bytesOf "--verbose")) = .usage err ∧
        (err = [] ∨ err = missingPayload ∨
          ∃ k ∈ bytesOf "--verbose" :: oneRelayArgs, badPubkeyArg k = true ∧
            err = invalidPubkey k)) ∨
      ∃ path, ArgError.usage (invalidPubkey (bytesOf "--verbose")) = .unreadable path ∧
        noFiles path = none ∧ byte '@' :: path ∈ bytesOf "--verbose" :: oneRelayArgs) :=
  ⟨rfl, parseArgs_error rfl⟩

end Beldex
