import BeldexStorage.Key

/-! # The storage server's startup and shutdown

`main` of the storage server (`src/unnamed/part_001`) reads its options, picks and creates
its data directory, starts logging, refuses to bind to `127.0.0.1`, reads the stats access
keys, asks beldexd for the node's private keys, writes its TLS files where missing, builds
and starts its bmq and HTTPS servers, waits for a signal and shuts down.  The model is what
`main` does to the world, in order, and how it ends, for every answer the world gives it
(`Env`).

Every call of `main` into code outside this file may throw (`Env.throws`).  From
`fs::exists` and `fs::create_directories` of the data directory and from `init_logging`,
which stand before the `try` block, the exception leaves `main` and ends the process; from a
call inside the `try` block it is caught and printed, and `main` returns `EXIT_FAILURE`.
`Env.calls` makes a list of calls up to the first that throws.  The log lines, the
`mn_record` and `ChannelEncryption` values, `sd_notify`, `add_timer` and the three shutdown
calls are taken to return.

`main_cases` says once what a run can do; the results below are read off it.

* **`opensPort_main_iff`**: `main` calls `bmq_server.init` exactly when every check before
  it passed and every call before it returned; the loopback guard compares the address's
  text with `127.0.0.1` and nothing else.
* **`main_keys_before_ports`**: before its first port opens, `main` has called
  `get_mn_privkeys`, and the call returned.
* **`main_drain_order`**: in a run that opens a port, either `https_server.start()` returns
  and `main` installs its timers, waits for a signal, shuts down the master node, the HTTPS
  server and the bmq server, in that order, and exits with `EXIT_SUCCESS`; or one of the two
  calls that open a port throws, and `main` exits with `EXIT_FAILURE` without a shutdown call.
* **`main_exit_iff`**: `main` exits with `EXIT_SUCCESS` exactly after the usage, the version
  or a full run; an exception leaves it exactly when it comes from before the `try` block;
  on every other path it exits with `EXIT_FAILURE`.
* **`main_tlsFiles`**: the certificate and its key are generated together when `fs::exists`
  says either file is missing, the DH parameters when it says theirs is and every call
  before returned, before either server starts.

The build without `INTEGRATION_TEST` is modelled, with or without systemd.
-/
namespace Beldex
namespace Server
open Bmq

/-- A filesystem path, as its components. -/
abbrev Path := List Bytes

/-- The options of `command_line_parser` that `main` reads. -/
structure Options where
  printHelp : Bool
  printVersion : Bool
  dataDir : Bytes
  testnet : Bool
  logLevel : Bytes
  ip : Bytes
  port : Nat
  bmqPort : Nat
  beldexdBmqRpc : Bytes
  forceStart : Bool
  statsAccessKeys : List Bytes

/-- An exception: a `std::exception`, with its `what()`, or anything else thrown. -/
inductive Thrown
  | std (what : Bytes)
  | other
  deriving DecidableEq

/-- The calls of `main` into code outside this file. -/
inductive Call
  /-- `fs::exists`. -/
  | fsExists (p : Path)
  /-- `fs::create_directories`. -/
  | createDirectories (dir : Path)
  /-- `beldex::init_logging`. -/
  | initLogging (dir : Path)
  /-- `generate_cert`. -/
  | generateCert (cert key : Path)
  /-- `generate_dh_pem`. -/
  | generateDhPem (dh : Path)
  /-- `std::make_unique<bmqServer>`, from `me` (which holds `options.bmq_port`) and the
  stats access keys. -/
  | newBmqServer (bmqPort : Nat) (statsAccessKeys : List X25519Pubkey)
  /-- The constructor of `MasterNode`. -/
  | newMasterNode (dataDir : Path) (forceStart : Bool)
  /-- The constructor of `RequestHandler`. -/
  | newRequestHandler
  /-- The constructor of `RateLimiter`. -/
  | newRateLimiter
  /-- The constructor of `HTTPSServer`, on `options.ip` and `options.port`. -/
  | newHttpsServer (ip : Bytes) (port : Nat)
  /-- `bmq_server.init`: the bmq server listens and connects to beldexd. -/
  | initBmq (beldexdRpc : Bytes)
  /-- `https_server.start()`. -/
  | startHttps
  deriving DecidableEq

/-- What the world answers `main`. -/
structure Env where
  /-- `parser.parse_args`: the options, or what it throws. -/
  args : Except Thrown Options
  /-- `util::get_home_dir()`. -/
  homeDir : Option Path
  /-- What `fs::exists` answers when it returns. -/
  pathExists : Path → Bool
  /-- What a call throws; `none` when it returns. -/
  throws : Call → Option Thrown
  /-- Whether `parse_log_level` reads the level. -/
  logLevelOk : Bytes → Bool
  /-- Whether `sodium_init()` returned `0`. -/
  sodiumOk : Bool
  /-- `get_mn_privkeys`: it returns the node's three private keys, or throws. -/
  privkeys : Except Thrown Unit
  /-- Whether a signal came before `get_mn_privkeys` returned. -/
  signalledAtKeys : Bool

/-- What `main` does to the world. -/
inductive Effect
  /-- A line on `std::cerr`. -/
  | printError (msg : Bytes)
  /-- `parser.print_usage()`. -/
  | printUsage
  /-- `STORAGE_SERVER_VERSION_INFO` on `std::cout`. -/
  | printVersion
  /-- `beldex::print_log_levels()`. -/
  | printLogLevels
  /-- A call, which returned or threw as `Env.throws` says. -/
  | call (c : Call)
  /-- `beldex::is_mainnet = false`. -/
  | useTestnet
  /-- The call of `get_mn_privkeys`. -/
  | getMnPrivkeys
  /-- `sd_notify` of `READY=1`. -/
  | notifyReady
  /-- `add_timer`, with its period in seconds. -/
  | addTimer (seconds : Nat)
  /-- The loop `while (signalled.load() == 0)`. -/
  | waitForSignal
  /-- `master_node.shutdown()`. -/
  | shutdownMasterNode
  /-- `https_server.shutdown(true)`. -/
  | shutdownHttps
  /-- `bmq_server_ptr.reset()`. -/
  | stopBmq
  deriving DecidableEq

/-- How a run of `main` ends: it returns an exit code, or an exception leaves it and
`std::terminate` ends the process, with neither exit code. -/
inductive Exit
  | code (c : Nat)
  | uncaught (t : Thrown)
  deriving DecidableEq

/-- `EXIT_SUCCESS`. -/
def exitSuccess : Exit := .code 0

/-- `EXIT_FAILURE`. -/
def exitFailure : Exit := .code 1

/-- The calls that open a port to the network. -/
def Call.opensPort : Call → Bool
  | .initBmq _ | .startHttps => true
  | _ => false

/-- The effects that open a port to the network. -/
def Effect.opensPort : Effect → Bool
  | .call c => c.opensPort
  | _ => false

/-- The calls `cs`, made in order up to the first that throws, and its exception. -/
def Env.calls (env : Env) : List Call → List Effect × Option Thrown
  | [] => ([], none)
  | c :: cs =>
    match env.throws c with
    | some t => ([.call c], some t)
    | none => (.call c :: (env.calls cs).1, (env.calls cs).2)

/-- The line `main` prints when it has no data directory. -/
def noHomeDir : Bytes :=
  bytesOf "Could not determine your home directory; please use --data-dir to specify a data directory"

/-- The line `main` prints for a log level `parse_log_level` refuses. -/
def incorrectLogLevel (level : Bytes) : Bytes := bytesOf "Incorrect log level: " ++ level

/-- The line of the two `catch` clauses of `main`'s `try` block (lines 231–239). -/
def caught : Thrown → Bytes
  | .std what => bytesOf "Exception caught in main: " ++ what
  | .other => bytesOf "Unknown exception caught in main."

/-- The data directory: `--data-dir`, or else `~/.beldex/storage`, `~/.beldex/testnet/storage`
on testnet. -/
def dataDirOf (homeDir : Option Path) (o : Options) : Option Path :=
  if o.dataDir.isEmpty then
    homeDir.map fun h => h ++ if o.testnet then
      [bytesOf ".beldex", bytesOf "testnet", bytesOf "storage"]
    else [bytesOf ".beldex", bytesOf "storage"]
  else some [o.dataDir]

/-- Lines 83–84: the data directory is created when `fs::exists` says it is missing. -/
def dataDirCalls (env : Env) (d : Path) : List Call :=
  .fsExists d :: if env.pathExists d then [] else [.createDirectories d]

/-- The loop over `options.stats_access_keys`: `x25519_pubkey::from_hex` of each, or the
text of the first exception. -/
def readStatsAccessKeys : List Bytes → Except String (List X25519Pubkey)
  | [] => .ok []
  | k :: ks => do
    let pk ← Key32.fromHex k
    let pks ← readStatsAccessKeys ks
    pure (⟨pk⟩ :: pks)

/-- `ssl_cert`. -/
def sslCert (d : Path) : Path := d ++ [bytesOf "cert.pem"]

/-- `ssl_key`. -/
def sslKey (d : Path) : Path := d ++ [bytesOf "key.pem"]

/-- `ssl_dh`. -/
def sslDh (d : Path) : Path := d ++ [bytesOf "dh.pem"]

/-- Lines 181–182: `!exists(ssl_cert) || !exists(ssl_key)`, then `generate_cert`. -/
def certCalls (env : Env) (d : Path) : List Call :=
  (.fsExists (sslCert d) :: if env.pathExists (sslCert d) then [.fsExists (sslKey d)] else []) ++
    if env.pathExists (sslCert d) && env.pathExists (sslKey d) then []
    else [.generateCert (sslCert d) (sslKey d)]

/-- Lines 183–184: `!exists(ssl_dh)`, then `generate_dh_pem`. -/
def dhCalls (env : Env) (d : Path) : List Call :=
  .fsExists (sslDh d) :: if env.pathExists (sslDh d) then [] else [.generateDhPem (sslDh d)]

/-- Lines 178–201: the TLS files, then the servers' objects. -/
def setup (env : Env) (o : Options) (d : Path) (pks : List X25519Pubkey) : List Call :=
  certCalls env d ++ dhCalls env d ++
    [.newBmqServer o.bmqPort pks, .newMasterNode d o.forceStart, .newRequestHandler,
      .newRateLimiter, .newHttpsServer o.ip o.port]

/-- Lines 204–207: the calls that open the two servers' ports. -/
def listen (o : Options) : List Call := [.initBmq o.beldexdBmqRpc, .startHttps]

/-- The timers of a running server: with systemd, `READY=1` and the watchdog every 10 s;
the status line every hour. -/
def timers (systemd : Bool) : List Effect :=
  (if systemd then [.notifyReady, .addTimer 10] else []) ++ [.addTimer 3600]

/-- The shutdown after the signal. -/
def drain : List Effect := [.shutdownMasterNode, .shutdownHttps, .stopBmq]

/-- The `try` block from the TLS files on, with the stats access keys `pks`: the exception of
a call is caught; otherwise the server runs until a signal and shuts down. -/
def runServers (systemd : Bool) (env : Env) (o : Options) (d : Path)
    (pks : List X25519Pubkey) : List Effect × Exit :=
  match (env.calls (setup env o d pks ++ listen o)).2 with
  | some t => ((env.calls (setup env o d pks ++ listen o)).1 ++ [.printError (caught t)],
      exitFailure)
  | none => ((env.calls (setup env o d pks ++ listen o)).1 ++ timers systemd ++
      .waitForSignal :: drain, exitSuccess)

/-- The `try` block of `main`, lines 133–239. -/
def serve (systemd : Bool) (env : Env) (o : Options) (d : Path) : List Effect × Exit :=
  match readStatsAccessKeys o.statsAccessKeys with
  | .error e => ([.printError (caught (.std (bytesOf e)))], exitFailure)
  | .ok pks =>
    match env.privkeys with
    | .error t => ([.getMnPrivkeys, .printError (caught t)], exitFailure)
    | .ok () =>
      if env.signalledAtKeys then ([.getMnPrivkeys], exitFailure)
      else (.getMnPrivkeys :: (runServers systemd env o d pks).1,
        (runServers systemd env o d pks).2)

/-- The effects of `main` from the data directory to the loopback guard, when every call
returns. -/
def started (env : Env) (o : Options) (d : Path) : List Effect :=
  (dataDirCalls env d).map .call ++ .call (.initLogging d) :: if o.testnet then [.useTestnet] else []

/-- `main` of the storage server: its effects, and how it ends. -/
def main (systemd : Bool) (env : Env) : List Effect × Exit :=
  match env.args with
  | .error (.std e) => ([.printError e, .printUsage], exitFailure)
  | .error .other => ([], .uncaught .other)
  | .ok o =>
    if o.printHelp then ([.printUsage], exitSuccess)
    else if o.printVersion then ([.printVersion], exitSuccess)
    else match dataDirOf env.homeDir o with
      | none => ([.printError noHomeDir], exitFailure)
      | some d =>
        match (env.calls (dataDirCalls env d)).2 with
        | some t => ((env.calls (dataDirCalls env d)).1, .uncaught t)
        | none =>
          if env.logLevelOk o.logLevel = false then
            ((dataDirCalls env d).map .call ++
              [.printError (incorrectLogLevel o.logLevel), .printLogLevels], exitFailure)
          else match env.throws (.initLogging d) with
            | some t => ((dataDirCalls env d).map .call ++ [.call (.initLogging d)], .uncaught t)
            | none =>
              if o.ip = bytesOf "127.0.0.1" then (started env o d, exitFailure)
              else if env.sodiumOk = false then (started env o d, exitFailure)
              else (started env o d ++ (serve systemd env o d).1, (serve systemd env o d).2)

/-! ## Runs of calls -/

section Calls
variable {env : Env}

@[simp] theorem calls_nil : env.calls [] = ([], none) := rfl

theorem mem_calls_cons {e : Effect} {c : Call} {cs : List Call} :
    e ∈ (env.calls (c :: cs)).1 ↔ e = .call c ∨ env.throws c = none ∧ e ∈ (env.calls cs).1 := by
  simp only [Env.calls]
  cases env.throws c <;> simp

/-- A run of calls stops with an exception exactly when one of them throws. -/
theorem calls_eq_none_iff {cs : List Call} :
    (env.calls cs).2 = none ↔ ∀ c ∈ cs, env.throws c = none := by
  induction cs with
  | nil => simp [Env.calls]
  | cons c cs ih => rcases hc : env.throws c with _ | t <;> simp [Env.calls, hc, ih]

/-- When every call returns, each is made. -/
theorem calls_of_returns {cs : List Call} (h : ∀ c ∈ cs, env.throws c = none) :
    env.calls cs = (cs.map .call, none) := by
  induction cs with
  | nil => rfl
  | cons c cs ih =>
    rw [List.forall_mem_cons] at h
    simp only [Env.calls, h.1, ih h.2, List.map_cons]

theorem calls_append_of_returns {cs ds : List Call} (h : ∀ c ∈ cs, env.throws c = none) :
    env.calls (cs ++ ds) = (cs.map .call ++ (env.calls ds).1, (env.calls ds).2) := by
  induction cs with
  | nil => rfl
  | cons c cs ih =>
    rw [List.forall_mem_cons] at h
    rw [List.cons_append]
    simp only [Env.calls, h.1, ih h.2, List.map_cons, List.cons_append]

theorem calls_append_of_throws {cs ds : List Call} {t : Thrown} (h : (env.calls cs).2 = some t) :
    env.calls (cs ++ ds) = env.calls cs := by
  induction cs with
  | nil => cases h
  | cons c cs ih =>
    rw [List.cons_append]
    rcases hc : env.throws c with _ | t'
    · simp only [Env.calls, hc] at h ⊢
      rw [ih h]
    · simp only [Env.calls, hc]

theorem mem_calls_append {e : Effect} {cs ds : List Call} :
    e ∈ (env.calls (cs ++ ds)).1 ↔
      e ∈ (env.calls cs).1 ∨ (∀ c ∈ cs, env.throws c = none) ∧ e ∈ (env.calls ds).1 := by
  induction cs with
  | nil => simp [Env.calls]
  | cons c cs ih =>
    simp only [List.cons_append, mem_calls_cons, ih, List.forall_mem_cons, and_or_left, or_assoc,
      and_assoc]

/-- The effects of a run of calls are calls of the list. -/
theorem mem_of_mem_calls {e : Effect} {cs : List Call} (h : e ∈ (env.calls cs).1) :
    ∃ c ∈ cs, e = .call c := by
  induction cs with
  | nil => cases h
  | cons c cs ih =>
    rcases mem_calls_cons.mp h with rfl | ⟨-, h⟩
    · exact ⟨c, List.mem_cons_self _ _, rfl⟩
    · obtain ⟨c', hc', rfl⟩ := ih h
      exact ⟨c', List.mem_cons_of_mem _ hc', rfl⟩

theorem mem_of_call_mem_calls {c : Call} {cs : List Call} (h : .call c ∈ (env.calls cs).1) :
    c ∈ cs := by
  obtain ⟨c', hc', he⟩ := mem_of_mem_calls h
  exact Effect.call.inj he ▸ hc'

/-- A call that is not among `ds` is made in a run of `cs ++ ds` exactly when in one of `cs`. -/
theorem call_mem_calls_append_left {c : Call} {cs ds : List Call} (h : c ∉ ds) :
    .call c ∈ (env.calls (cs ++ ds)).1 ↔ .call c ∈ (env.calls cs).1 :=
  mem_calls_append.trans (or_iff_left fun h' => h (mem_of_call_mem_calls h'.2))

/-- A call that is not among `cs` is made in a run of `cs ++ ds` exactly when every call of
`cs` returned and it is made in a run of `ds`. -/
theorem call_mem_calls_append_right {c : Call} {cs ds : List Call} (h : c ∉ cs) :
    .call c ∈ (env.calls (cs ++ ds)).1 ↔
      (∀ c ∈ cs, env.throws c = none) ∧ .call c ∈ (env.calls ds).1 :=
  mem_calls_append.trans (or_iff_right fun h' => h (mem_of_call_mem_calls h'))

theorem calls_not_opensPort {cs : List Call} (h : ∀ c ∈ cs, c.opensPort = false) :
    ∀ e ∈ (env.calls cs).1, e.opensPort = false := fun e he => by
  obtain ⟨c, hc, rfl⟩ := mem_of_mem_calls he
  exact h c hc

end Calls

/-! ## The checks before the servers -/

/-- `main` gets past every check to its TLS files, with options `o`, data directory `d` and
stats access keys `pks`. -/
structure Env.Starts (env : Env) (o : Options) (d : Path) (pks : List X25519Pubkey) : Prop where
  args : env.args = .ok o
  noHelp : o.printHelp = false
  noVersion : o.printVersion = false
  dataDir : dataDirOf env.homeDir o = some d
  makesDataDir : ∀ c ∈ dataDirCalls env d, env.throws c = none
  logLevel : env.logLevelOk o.logLevel = true
  logging : env.throws (.initLogging d) = none
  notLocalhost : o.ip ≠ bytesOf "127.0.0.1"
  sodium : env.sodiumOk = true
  statsKeys : (∀ k ∈ o.statsAccessKeys, isHex k = true ∧ k.length = 64) ∧
    pks.map (·.key.bytes) = o.statsAccessKeys.map fromHex
  privkeys : env.privkeys = .ok ()
  noSignal : env.signalledAtKeys = false

/-- `main` is asked for its usage or its version. -/
def Env.AsksInfo (env : Env) : Prop :=
  ∃ o, env.args = .ok o ∧ (o.printHelp = true ∨ o.printVersion = true)

/-- An exception leaves `main` from before its `try` block: `parse_args` throws something
that is not a `std::exception` (line 51 catches only those), or a call on the data directory
or `init_logging` throws (lines 83–93). -/
def Env.Escapes (env : Env) : Prop :=
  env.args = .error .other ∨
  ∃ o d, env.args = .ok o ∧ o.printHelp = false ∧ o.printVersion = false ∧
    dataDirOf env.homeDir o = some d ∧
    ((∃ c ∈ dataDirCalls env d, env.throws c ≠ none) ∨
      (∀ c ∈ dataDirCalls env d, env.throws c = none) ∧ env.logLevelOk o.logLevel = true ∧
        env.throws (.initLogging d) ≠ none)

theorem readStatsAccessKeys_cons {k : Bytes} {ks : List Bytes} {pks : List X25519Pubkey} :
    readStatsAccessKeys (k :: ks) = .ok pks ↔
      ∃ pk ps, Key32.fromHex k = .ok pk ∧ readStatsAccessKeys ks = .ok ps ∧ pks = ⟨pk⟩ :: ps := by
  simp only [readStatsAccessKeys]
  cases Key32.fromHex k <;> cases readStatsAccessKeys ks <;> simp [pure, Except.pure, eq_comm]

/-- The stats access keys are read exactly when each is 64 hex digits, and then with
`bmq::from_hex`. -/
theorem readStatsAccessKeys_eq_ok {ks : List Bytes} {pks : List X25519Pubkey} :
    readStatsAccessKeys ks = .ok pks ↔
      (∀ k ∈ ks, isHex k = true ∧ k.length = 64) ∧ pks.map (·.key.bytes) = ks.map fromHex := by
  induction ks generalizing pks with
  | nil => cases pks <;> simp [readStatsAccessKeys]
  | cons k ks ih =>
    rw [readStatsAccessKeys_cons]
    constructor
    · rintro ⟨pk, ps, hk, hr, rfl⟩
      obtain ⟨hx, hl, hb⟩ := Key32.fromHex_eq_ok.mp hk
      obtain ⟨hall, hmap⟩ := ih.mp hr
      exact ⟨List.forall_mem_cons.mpr ⟨⟨hx, hl⟩, hall⟩, by simp [hb, hmap]⟩
    · rintro ⟨hall, hmap⟩
      obtain ⟨⟨hx, hl⟩, hall⟩ := List.forall_mem_cons.mp hall
      obtain ⟨p, ps, rfl⟩ := List.exists_cons_of_ne_nil (l := pks) (by rintro rfl; simp at hmap)
      simp only [List.map_cons, List.cons.injEq] at hmap
      exact ⟨p.key, ps, Key32.fromHex_eq_ok.mpr ⟨hx, hl, hmap.1⟩, ih.mpr ⟨hall, hmap.2⟩, rfl⟩

theorem dataDirCalls_not_opensPort (env : Env) (d : Path) :
    ∀ c ∈ dataDirCalls env d, c.opensPort = false := by
  unfold dataDirCalls; split_ifs <;> simp [Call.opensPort]

/-- `generate_cert` is called when `fs::exists` returned `false` for `cert.pem`, or `true` for it
and `false` for `key.pem`. -/
theorem generateCert_mem_certCalls (env : Env) (d : Path) :
    .call (.generateCert (sslCert d) (sslKey d)) ∈ (env.calls (certCalls env d)).1 ↔
      env.throws (.fsExists (sslCert d)) = none ∧ (env.pathExists (sslCert d) = false ∨
        env.throws (.fsExists (sslKey d)) = none ∧ env.pathExists (sslKey d) = false) := by
  unfold certCalls
  cases env.pathExists (sslCert d) <;> cases env.pathExists (sslKey d) <;> simp [mem_calls_cons]

theorem generateDhPem_mem_dhCalls (env : Env) (d : Path) :
    .call (.generateDhPem (sslDh d)) ∈ (env.calls (dhCalls env d)).1 ↔
      env.throws (.fsExists (sslDh d)) = none ∧ env.pathExists (sslDh d) = false := by
  unfold dhCalls
  cases env.pathExists (sslDh d) <;> simp [mem_calls_cons]

theorem setup_not_opensPort (env : Env) (o : Options) (d : Path) (pks : List X25519Pubkey) :
    ∀ c ∈ setup env o d pks, c.opensPort = false := by
  have h : ((setup env o d pks).all fun c => !c.opensPort) = true := by
    unfold setup certCalls dhCalls
    split_ifs <;> rfl
  simpa using List.all_eq_true.mp h

theorem effects_started (env : Env) (o : Options) (d : Path) :
    ((started env o d).all fun e => !e.opensPort) = true := by
  unfold started dataDirCalls
  split_ifs <;> rfl

theorem serve_cases (systemd : Bool) (env : Env) (o : Options) (d : Path) :
    (((serve systemd env o d).1.all fun e => !e.opensPort) = true ∧
      (serve systemd env o d).2 = exitFailure) ∨
    ∃ pks, readStatsAccessKeys o.statsAccessKeys = .ok pks ∧ env.privkeys = .ok () ∧
      env.signalledAtKeys = false := by
  unfold serve
  split
  · exact .inl ⟨rfl, rfl⟩
  rename_i pks hpks
  split
  · exact .inl ⟨rfl, rfl⟩
  rename_i hk
  split
  · exact .inl ⟨rfl, rfl⟩
  rename_i hsig
  exact .inr ⟨pks, hpks, hk, by simpa using hsig⟩

/-! ## The servers -/

/-- After its calls, a run of the servers opens no port and calls out no more. -/
theorem runServers_eq (systemd : Bool) (env : Env) (o : Options) (d : Path)
    (pks : List X25519Pubkey) :
    ∃ tail, (runServers systemd env o d pks).1 =
        (env.calls (setup env o d pks ++ listen o)).1 ++ tail ∧
      ∀ e ∈ tail, e.opensPort = false ∧ ∀ c, e ≠ .call c := by
  unfold runServers
  split
  · exact ⟨_, rfl, List.forall_mem_singleton.mpr ⟨rfl, fun _ => nofun⟩⟩
  · refine ⟨_, List.append_assoc .., ?_⟩
    cases systemd <;> simp only [timers, drain, Bool.false_eq_true, ↓reduceIte, List.cons_append,
      List.nil_append, List.singleton_append, List.mem_cons, List.mem_singleton, Effect.opensPort,
      ne_eq, forall_eq_or_imp, reduceCtorEq, not_false_eq_true, implies_true, and_self, forall_eq,
      List.not_mem_nil, false_implies, and_true]

/-- The servers' ports are opened exactly when every call of `setup` returned. -/
theorem opensPort_runServers (systemd : Bool) (env : Env) (o : Options) (d : Path)
    (pks : List X25519Pubkey) :
    (∃ e ∈ (runServers systemd env o d pks).1, e.opensPort) ↔
      ∀ c ∈ setup env o d pks, env.throws c = none := by
  obtain ⟨tail, heq, htail⟩ := runServers_eq systemd env o d pks
  rw [heq]
  constructor
  · rintro ⟨e, he, hp⟩
    rcases List.mem_append.mp he with he | he
    · rcases mem_calls_append.mp he with he | ⟨h, -⟩
      · simp [calls_not_opensPort (setup_not_opensPort env o d pks) e he] at hp
      · exact h
    · simp [(htail e he).1] at hp
  · intro h
    exact ⟨.call (.initBmq o.beldexdBmqRpc), List.mem_append_left _
      (mem_calls_append.mpr (.inr ⟨h, mem_calls_cons.mpr (.inl rfl)⟩)), rfl⟩

theorem exit_runServers (systemd : Bool) (env : Env) (o : Options) (d : Path)
    (pks : List X25519Pubkey) :
    ((runServers systemd env o d pks).2 = exitSuccess ↔
      ∀ c ∈ setup env o d pks ++ listen o, env.throws c = none) ∧
    ((runServers systemd env o d pks).2 = exitSuccess ∨
      (runServers systemd env o d pks).2 = exitFailure) := by
  rw [← calls_eq_none_iff]
  unfold runServers
  split <;> simp_all [exitSuccess, exitFailure]

/-- Before its first port opens, a run of the servers has made the calls of `setup` that it
got to, and no other call. -/
theorem takeWhile_runServers (systemd : Bool) (env : Env) (o : Options) (d : Path)
    (pks : List X25519Pubkey) :
    ∃ rest, (runServers systemd env o d pks).1.takeWhile (fun e => !e.opensPort) =
      (env.calls (setup env o d pks)).1 ++ rest ∧ ∀ c, Effect.call c ∉ rest := by
  obtain ⟨tail, heq, htail⟩ := runServers_eq systemd env o d pks
  have hs : ∀ e ∈ (env.calls (setup env o d pks)).1, (!e.opensPort) = true := fun e he => by
    simp [calls_not_opensPort (setup_not_opensPort env o d pks) e he]
  rw [heq]
  rcases hret : (env.calls (setup env o d pks)).2 with _ | t
  · have hr := calls_eq_none_iff.mp hret
    rw [calls_of_returns hr] at hs
    refine ⟨[], ?_, fun _ => List.not_mem_nil _⟩
    rw [calls_append_of_returns hr, calls_of_returns hr, List.append_assoc,
      List.takeWhile_append_of_pos hs]
    simp only [listen, Env.calls]
    cases env.throws (.initBmq o.beldexdBmqRpc) <;> rfl
  · rw [calls_append_of_throws hret, List.takeWhile_append_of_pos hs]
    exact ⟨_, rfl, fun c hc => (htail _ (List.takeWhile_subset _ hc)).2 c rfl⟩

/-! ## What `main` can do -/

/-- **What `main` can do**: stop before opening a port, with `EXIT_FAILURE`, after the usage or
the version was asked for, or with an exception from before its `try` block; or get past
every check to its TLS files. -/
theorem main_cases (systemd : Bool) (env : Env) :
    (((main systemd env).1.all fun e => !e.opensPort) = true ∧
      ((main systemd env).2 = exitFailure ∨ (env.AsksInfo ∧ (main systemd env).2 = exitSuccess) ∨
        (env.Escapes ∧ ∃ t, (main systemd env).2 = .uncaught t))) ∨
    ∃ o d pks, env.Starts o d pks := by
  generalize hr : main systemd env = r
  rcases ha : env.args with (e | _) | o <;> simp only [main, ha] at hr
  · cases hr; exact .inl ⟨rfl, .inl rfl⟩
  · cases hr; exact .inl ⟨rfl, .inr (.inr ⟨.inl ha, _, rfl⟩)⟩
  by_cases hh : o.printHelp
  · rw [if_pos hh] at hr; cases hr; exact .inl ⟨rfl, .inr (.inl ⟨⟨o, ha, .inl hh⟩, rfl⟩)⟩
  rw [if_neg hh] at hr
  by_cases hv : o.printVersion
  · rw [if_pos hv] at hr; cases hr; exact .inl ⟨rfl, .inr (.inl ⟨⟨o, ha, .inr hv⟩, rfl⟩)⟩
  rw [if_neg hv] at hr
  rcases hd : dataDirOf env.homeDir o with _ | d <;> simp only [hd] at hr
  · cases hr; exact .inl ⟨rfl, .inl rfl⟩
  have hdc := dataDirCalls_not_opensPort env d
  have hdm : ((dataDirCalls env d).map Effect.call).all (fun e => !e.opensPort) = true := by
    unfold dataDirCalls; split_ifs <;> rfl
  rcases hdn : (env.calls (dataDirCalls env d)).2 with _ | t <;> simp only [hdn] at hr
  swap
  · cases hr
    refine .inl ⟨List.all_eq_true.mpr fun e he => by simp [calls_not_opensPort hdc e he],
      .inr (.inr ⟨.inr ⟨o, d, ha, Bool.of_not_eq_true hh, Bool.of_not_eq_true hv, hd, .inl ?_⟩,
        t, rfl⟩)⟩
    by_contra hn
    push_neg at hn
    rw [calls_eq_none_iff.mpr hn] at hdn
    cases hdn
  have hds := calls_eq_none_iff.mp hdn
  by_cases hl : env.logLevelOk o.logLevel = false
  · rw [if_pos hl] at hr; cases hr; exact .inl ⟨by rw [List.all_append, hdm]; rfl, .inl rfl⟩
  rw [if_neg hl] at hr
  rcases hlog : env.throws (.initLogging d) with _ | t <;> simp only [hlog] at hr
  swap
  · cases hr
    exact .inl ⟨by rw [List.all_append, hdm]; rfl, .inr (.inr ⟨.inr ⟨o, d, ha,
      Bool.of_not_eq_true hh, Bool.of_not_eq_true hv, hd,
      .inr ⟨hds, Bool.of_not_eq_false hl, by simp [hlog]⟩⟩, t, rfl⟩)⟩
  by_cases hip : o.ip = bytesOf "127.0.0.1"
  · rw [if_pos hip] at hr; cases hr; exact .inl ⟨effects_started env o d, .inl rfl⟩
  rw [if_neg hip] at hr
  by_cases hs : env.sodiumOk = false
  · rw [if_pos hs] at hr; cases hr; exact .inl ⟨effects_started env o d, .inl rfl⟩
  rw [if_neg hs] at hr
  cases hr
  rcases serve_cases systemd env o d with ⟨hq, hx⟩ | ⟨pks, hpks, hk, hsig⟩
  · exact .inl ⟨by simp only [List.all_append, effects_started, hq, Bool.and_self], .inl hx⟩
  · exact .inr ⟨o, d, pks, ha, Bool.of_not_eq_true hh, Bool.of_not_eq_true hv, hd, hds,
      Bool.of_not_eq_false hl, hlog, hip, Bool.of_not_eq_false hs,
      readStatsAccessKeys_eq_ok.mp hpks, hk, hsig⟩

/-- The run of `main` that gets to its TLS files. -/
theorem main_of_starts (systemd : Bool) {env : Env} {o : Options} {d : Path}
    {pks : List X25519Pubkey} (h : env.Starts o d pks) :
    main systemd env = (started env o d ++ .getMnPrivkeys :: (runServers systemd env o d pks).1,
      (runServers systemd env o d pks).2) := by
  have hpks := readStatsAccessKeys_eq_ok.mpr h.statsKeys
  have hdn := calls_eq_none_iff.mpr h.makesDataDir
  simp [main, h.args, h.noHelp, h.noVersion, h.dataDir, hdn, h.logLevel, h.logging,
    h.notLocalhost, h.sodium, serve, hpks, h.privkeys, h.noSignal]

/-- What a run that gets to its TLS files does before its first port opens. -/
theorem takeWhile_main_of_starts (systemd : Bool) {env : Env} {o : Options} {d : Path}
    {pks : List X25519Pubkey} (h : env.Starts o d pks) :
    (main systemd env).1.takeWhile (fun e => !e.opensPort) =
      started env o d ++ .getMnPrivkeys ::
        (runServers systemd env o d pks).1.takeWhile (fun e => !e.opensPort) := by
  rw [main_of_starts systemd h, List.takeWhile_append_of_pos
    (List.all_eq_true.mp (effects_started env o d))]
  rfl

theorem main_of_asksInfo (systemd : Bool) {env : Env} (h : env.AsksInfo) :
    (main systemd env).2 = exitSuccess := by
  obtain ⟨o, ha, hh | hv⟩ := h
  · simp [main, ha, hh]
  · by_cases hh : o.printHelp <;> simp [main, ha, hh, hv]

theorem main_of_escapes (systemd : Bool) {env : Env} (h : env.Escapes) :
    ∃ t, (main systemd env).2 = .uncaught t := by
  rcases h with ha | ⟨o, d, ha, hh, hv, hd, ⟨c, hc, ht⟩ | ⟨hds, hl, ht⟩⟩
  · exact ⟨.other, by simp [main, ha]⟩
  · obtain ⟨t, hsome⟩ : ∃ t, (env.calls (dataDirCalls env d)).2 = some t :=
      Option.ne_none_iff_exists'.mp fun hn => ht (calls_eq_none_iff.mp hn c hc)
    exact ⟨t, by simp [main, ha, hh, hv, hd, hsome]⟩
  · obtain ⟨t, hsome⟩ := Option.ne_none_iff_exists'.mp ht
    exact ⟨t, by simp [main, ha, hh, hv, hd, calls_eq_none_iff.mpr hds, hl, hsome]⟩

/-- A run that opens a port got past every check, and every call of `setup` returned. -/
theorem starts_of_opensPort {systemd : Bool} {env : Env}
    (h : ∃ e ∈ (main systemd env).1, e.opensPort) :
    ∃ o d pks, env.Starts o d pks ∧ ∀ c ∈ setup env o d pks, env.throws c = none := by
  obtain ⟨e, he, hp⟩ := h
  obtain ⟨o, d, pks, hs⟩ := (main_cases systemd env).resolve_left fun hq => by
    simpa [hp] using List.all_eq_true.mp hq.1 e he
  refine ⟨o, d, pks, hs, (opensPort_runServers systemd env o d pks).mp ⟨e, ?_, hp⟩⟩
  rw [main_of_starts systemd hs] at he
  rcases List.mem_append.mp he with he | he
  · simpa [hp] using List.all_eq_true.mp (effects_started env o d) e he
  · rcases List.mem_cons.mp he with rfl | he
    · cases hp
    · exact he

/-! ## Runs of `main` -/

/-- Options that bind to `127.0.0.2`, with no stats access keys. -/
def secondLoopback : Options :=
  ⟨false, false, bytesOf "storage", false, bytesOf "info", bytesOf "127.0.0.2", 22021, 22020,
    bytesOf "beldexd", false, []⟩

/-- A world in which every call of `main` returns and no file exists yet. -/
def freshEnv (o : Options) : Env :=
  ⟨.ok o, some [bytesOf "home"], fun _ => false, fun _ => none, fun _ => true, true, .ok (),
    false⟩

example : ∃ e ∈ (main false (freshEnv secondLoopback)).1, e.opensPort := by decide

/-- **The keys come before the ports**: before its first port opens, `main` has called
`get_mn_privkeys`, and the call returned before any signal. -/
theorem main_keys_before_ports (systemd : Bool) (env : Env)
    (h : ∃ e ∈ (main systemd env).1, e.opensPort) :
    .getMnPrivkeys ∈ (main systemd env).1.takeWhile (fun e => !e.opensPort) ∧
      env.privkeys = .ok () ∧ env.signalledAtKeys = false := by
  obtain ⟨o, d, pks, hs, -⟩ := starts_of_opensPort h
  rw [takeWhile_main_of_starts systemd hs]
  exact ⟨List.mem_append_right _ (List.mem_cons_self _ _), hs.privkeys, hs.noSignal⟩

theorem main_keys_before_ports_second_loopback :
    (∃ e ∈ (main false (freshEnv secondLoopback)).1, e.opensPort) ∧
      .getMnPrivkeys ∈
        (main false (freshEnv secondLoopback)).1.takeWhile (fun e => !e.opensPort) ∧
      (freshEnv secondLoopback).privkeys = .ok () ∧
      (freshEnv secondLoopback).signalledAtKeys = false := by
  have h : ∃ e ∈ (main false (freshEnv secondLoopback)).1, e.opensPort := by decide
  exact ⟨h, main_keys_before_ports false _ h⟩

/-- **The exit code**: `main` exits with `EXIT_SUCCESS` exactly when it was asked for its
usage or its version, or got past every check, every call returned and it served until a
signal; an exception leaves `main`, which then returns no exit code, exactly when it comes
from before the `try` block; on every other path, the loopback guard, a signal during
startup and a call of the `try` block that throws included, it exits with `EXIT_FAILURE`. -/
theorem main_exit_iff (systemd : Bool) (env : Env) :
    ((main systemd env).2 = exitSuccess ↔ env.AsksInfo ∨
      ∃ o d pks, env.Starts o d pks ∧ ∀ c ∈ setup env o d pks ++ listen o, env.throws c = none) ∧
    ((∃ t, (main systemd env).2 = .uncaught t) ↔ env.Escapes) ∧
    ((main systemd env).2 = exitSuccess ∨ (main systemd env).2 = exitFailure ∨
      ∃ t, (main systemd env).2 = .uncaught t) := by
  have hruns : ∀ {o d pks}, env.Starts o d pks →
      (main systemd env).2 = (runServers systemd env o d pks).2 := fun h => by
    rw [main_of_starts systemd h]
  have hsucc : ∀ o d pks, env.Starts o d pks →
      (∀ c ∈ setup env o d pks ++ listen o, env.throws c = none) →
      (main systemd env).2 = exitSuccess := fun o d pks h hr =>
    (hruns h).trans ((exit_runServers systemd env o d pks).1.mpr hr)
  have hcases := main_cases systemd env
  refine ⟨⟨fun h => ?_, ?_⟩, ⟨fun ⟨t, h⟩ => ?_, main_of_escapes systemd⟩, ?_⟩
  · rcases hcases with ⟨-, hx | ⟨hi, -⟩ | ⟨-, t, hx⟩⟩ | ⟨o, d, pks, hs⟩
    · simp [h, exitSuccess, exitFailure] at hx
    · exact .inl hi
    · simp [h, exitSuccess] at hx
    · exact .inr ⟨o, d, pks, hs,
        (exit_runServers systemd env o d pks).1.mp ((hruns hs).symm.trans h)⟩
  · rintro (hi | ⟨o, d, pks, hs, hr⟩)
    exacts [main_of_asksInfo systemd hi, hsucc o d pks hs hr]
  · rcases hcases with ⟨-, hx | ⟨-, hx⟩ | ⟨he, -⟩⟩ | ⟨o, d, pks, hs⟩
    · simp [h, exitFailure] at hx
    · simp [h, exitSuccess] at hx
    · exact he
    · rcases (exit_runServers systemd env o d pks).2 with hx | hx <;>
        simp [← hruns hs, h, exitSuccess, exitFailure] at hx
  · rcases hcases with ⟨-, hx | ⟨-, hx⟩ | ⟨-, t, hx⟩⟩ | ⟨o, d, pks, hs⟩
    · exact .inr (.inl hx)
    · exact .inl hx
    · exact .inr (.inr ⟨t, hx⟩)
    · rw [hruns hs]
      exact (exit_runServers systemd env o d pks).2.imp_right .inl

example : (main false (freshEnv { secondLoopback with ip := bytesOf "127.0.0.1" })).2 =
    exitFailure := rfl

example : (main false { freshEnv secondLoopback with
    throws := fun c => if c = .createDirectories [bytesOf "storage"] then some .other else none }).2 =
    .uncaught .other := by decide

/-- **The TLS files**: in a run that gets past its checks, before either server starts,
`main` calls `generate_cert` for `cert.pem` and `key.pem` exactly when `fs::exists` returned
`false` for `cert.pem`, or returned `true` for it and `false` for `key.pem` (so an existing
`cert.pem` is overwritten when only `key.pem` is missing); and it calls `generate_dh_pem`
exactly when the calls for the certificate all returned and `fs::exists` returned `false`
for `dh.pem`. -/
theorem main_tlsFiles (systemd : Bool) {env : Env} {o : Options} {d : Path}
    {pks : List X25519Pubkey} (h : env.Starts o d pks) :
    (.call (.generateCert (sslCert d) (sslKey d)) ∈
        (main systemd env).1.takeWhile (fun e => !e.opensPort) ↔
      env.throws (.fsExists (sslCert d)) = none ∧ (env.pathExists (sslCert d) = false ∨
        env.throws (.fsExists (sslKey d)) = none ∧ env.pathExists (sslKey d) = false)) ∧
    (.call (.generateDhPem (sslDh d)) ∈
        (main systemd env).1.takeWhile (fun e => !e.opensPort) ↔
      (∀ c ∈ certCalls env d, env.throws c = none) ∧ env.throws (.fsExists (sslDh d)) = none ∧
        env.pathExists (sslDh d) = false) := by
  obtain ⟨rest, hr, hrest⟩ := takeWhile_runServers systemd env o d pks
  have hpre : ∀ c, c ∉ dataDirCalls env d → c ≠ .initLogging d →
      (Effect.call c ∈ (main systemd env).1.takeWhile (fun e => !e.opensPort) ↔
        Effect.call c ∈ (env.calls (setup env o d pks)).1) := fun c hd hl => by
    rw [takeWhile_main_of_starts systemd h, hr]
    unfold started
    split_ifs <;> simp [hrest c, hl, hd]
  rw [hpre _ (by unfold dataDirCalls; split_ifs <;> simp) (by simp),
    hpre _ (by unfold dataDirCalls; split_ifs <;> simp) (by simp)]
  rw [setup, List.append_assoc,
    call_mem_calls_append_left (by unfold dhCalls; split_ifs <;> simp),
    generateCert_mem_certCalls, call_mem_calls_append_right (by unfold certCalls; split_ifs <;> simp),
    call_mem_calls_append_left (by simp), generateDhPem_mem_dhCalls]
  exact ⟨.rfl, .rfl⟩

theorem main_tlsFiles_second_loopback :
    (freshEnv secondLoopback).Starts secondLoopback [bytesOf "storage"] [] ∧
    (.call (.generateCert (sslCert [bytesOf "storage"]) (sslKey [bytesOf "storage"])) ∈
        (main false (freshEnv secondLoopback)).1.takeWhile (fun e => !e.opensPort) ↔
      (freshEnv secondLoopback).throws (.fsExists (sslCert [bytesOf "storage"])) = none ∧
        ((freshEnv secondLoopback).pathExists (sslCert [bytesOf "storage"]) = false ∨
          (freshEnv secondLoopback).throws (.fsExists (sslKey [bytesOf "storage"])) = none ∧
            (freshEnv secondLoopback).pathExists (sslKey [bytesOf "storage"]) = false)) ∧
    (.call (.generateDhPem (sslDh [bytesOf "storage"])) ∈
        (main false (freshEnv secondLoopback)).1.takeWhile (fun e => !e.opensPort) ↔
      (∀ c ∈ certCalls (freshEnv secondLoopback) [bytesOf "storage"],
          (freshEnv secondLoopback).throws c = none) ∧
        (freshEnv secondLoopback).throws (.fsExists (sslDh [bytesOf "storage"])) = none ∧
        (freshEnv secondLoopback).pathExists (sslDh [bytesOf "storage"]) = false) := by
  have h : (freshEnv secondLoopback).Starts secondLoopback [bytesOf "storage"] [] :=
    ⟨rfl, rfl, rfl, rfl, fun _ _ => rfl, rfl, rfl, by decide, rfl, by simp [secondLoopback],
      rfl, rfl⟩
  exact ⟨h, main_tlsFiles false h⟩

end Server
end Beldex
