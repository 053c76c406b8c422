import ChiNettest.Machinery.Shell
import ChiNettest.Machinery.Text
import ChiNettest.Rpc.Context

/-!
# Launcher/CommandLine — the command the launcher starts, and what `chi_net_bench` reads off it

    self.config  ──start──▸  cmd  ──shell──▸  argv  ──BenchmarkInit──▸  ServerConfig

`ChiNetBench.start` puts the program's name and ten values of its configuration between single
quotes.  The shell hands each of them over as one word exactly if no single quote stands in one, and
`BenchmarkInit` reads the words in the order they were written (`reachesConfig_iff`).

`hshm::ConfigParse` is a parameter.
-/

namespace ChiNettest

/-! ## The launcher -/

/-- The entries of `self.config` that `start` passes on. -/
structure LauncherConfig where
  test : String
  hostFile : String
  domain : String
  protocol : String
  port : ℕ
  rpcThreads : ℕ
  ioSize : String
  mdSize : String
  rep : ℕ
  sleep : ℕ
  deriving DecidableEq, Repr

namespace LauncherConfig

/-- `str(c)` of the values of `cmd`, in order. -/
def values (config : LauncherConfig) : List String :=
  [config.test, config.hostFile, config.domain, config.protocol, toString config.port,
    toString config.rpcThreads, config.ioSize, config.mdSize, toString config.rep,
    toString config.sleep]

/-- The command `ChiNetBench.start` executes. -/
def start (config : LauncherConfig) : String :=
  quotedCommand ("chi_net_bench" :: config.values)

end LauncherConfig

/-! ## The program -/

/-- `hshm::ConfigParse`. -/
structure ConfigParse where
  expandPath : String → String
  parseHostfile : String → List String
  parseSize : String → UInt64

/-- A `ServerConfig` with its `rpc_.host_file_`. -/
structure BenchmarkConfig extends ServerConfig where
  hostFile : String
  deriving DecidableEq, Repr

/-- The text `BenchmarkInit` reports a wrong number of arguments with. -/
def benchmarkUsage (argc : ℤ) : String :=
  "Only got " ++ toString (argc - 1) ++ "/10 params. " ++
    "Usage: <test> <hostfile> <domain> <protocol> <port> <num_threads> " ++
    "<io_size> <md_size> <rep> <sleep>"

/-- `rpc_.port_ = atoi(…)`: a number that is no `int` is not defined. -/
def readInt (word : String) : Except Exn ℤ :=
  match atoi word.toList with
  | some n => .ok n
  | none => .error .signedOverflow

/-- The host names of a host file: this host without one. -/
def hostNamesOf (lib : ConfigParse) (hostFile : String) (hostNames : List String) : List String :=
  if hostFile ≠ "" then lib.parseHostfile hostFile else hostNames ++ ["localhost"]

/-- `ServerConfig::BenchmarkInit`. -/
def benchmarkInit (lib : ConfigParse) (argv : List String) (self : BenchmarkConfig) :
    Except Exn BenchmarkConfig :=
  match argv with
  | [_, test, hostFile, domain, protocol, port, numThreads, ioSize, mdSize, rep, sleep] => do
    let hostFile := lib.expandPath hostFile
    let hostNames := hostNamesOf lib hostFile self.rpc.hostNames
    let port ← readInt port
    let numThreads ← readInt numThreads
    return { self with
      test := test
      hostFile := hostFile
      rpc := { hostNames, protocol, domain, port, numThreads }
      ioSize := lib.parseSize ioSize
      mdSize := lib.parseSize mdSize
      rep := lib.parseSize rep
      sleep := lib.parseSize sleep }
  | _ => .error (.fatal (benchmarkUsage argv.length))

/-! ## From one to the other -/

/-- What `BenchmarkInit` should make of the launcher's configuration: every field from its own
entry. -/
def LauncherConfig.read (lib : ConfigParse) (config : LauncherConfig) (self : BenchmarkConfig) :
    BenchmarkConfig :=
  { self with
    test := config.test
    hostFile := lib.expandPath config.hostFile
    rpc :=
      { hostNames := hostNamesOf lib (lib.expandPath config.hostFile) self.rpc.hostNames
        protocol := config.protocol
        domain := config.domain
        port := config.port
        numThreads := config.rpcThreads }
    ioSize := lib.parseSize config.ioSize
    mdSize := lib.parseSize config.mdSize
    rep := lib.parseSize (toString config.rep)
    sleep := lib.parseSize (toString config.sleep) }

/-- **The configuration of the launcher reaches the program**: its command is eleven words, the
program's name and the values, and `BenchmarkInit` reads each into its field. -/
def ReachesConfig (lib : ConfigParse) (config : LauncherConfig) (self : BenchmarkConfig) : Prop :=
  ∃ argv, shellSplit config.start = some argv ∧ argv.length = 11 ∧
    argv = "chi_net_bench" :: config.values ∧
    benchmarkInit lib argv self = .ok (config.read lib self)

/-- A number is written without a quote. -/
theorem quote_not_mem_toDigits (n : ℕ) : '\'' ∉ Nat.toDigits 10 n := by
  intro h
  exact absurd ((numeral_toDigits n).digits _ h) (by decide)

/-- `atoi` of a number `str` wrote. -/
theorem readInt_toString {n : ℕ} (h : n < 2 ^ 31) : readInt (toString n) = .ok (n : ℤ) := by
  have hchars : (toString n).toList = Nat.toDigits 10 n := by simp
  rw [readInt, hchars, atoi_toDigits h]

/-- **`BenchmarkInit` reads the values in the order `start` wrote them.** -/
theorem benchmarkInit_values (lib : ConfigParse) {config : LauncherConfig}
    (hport : config.port < 2 ^ 31) (hthreads : config.rpcThreads < 2 ^ 31)
    (self : BenchmarkConfig) :
    benchmarkInit lib ("chi_net_bench" :: config.values) self = .ok (config.read lib self) := by
  rw [LauncherConfig.values, benchmarkInit, readInt_toString hport, readInt_toString hthreads]
  rfl

/-- **The launcher's configuration reaches the program exactly if none of its strings contains a
single quote.** -/
theorem reachesConfig_iff (lib : ConfigParse) (config : LauncherConfig) (self : BenchmarkConfig)
    (hport : config.port < 2 ^ 31) (hthreads : config.rpcThreads < 2 ^ 31) :
    ReachesConfig lib config self ↔
      ∀ text ∈ [config.test, config.hostFile, config.domain, config.protocol, config.ioSize,
        config.mdSize], '\'' ∉ text.toList := by
  have hsplit := shellSplit_quotedCommand_iff ("chi_net_bench" :: config.values)
  have hname : '\'' ∉ "chi_net_bench".toList := by decide
  rw [List.forall_mem_cons, and_iff_right hname] at hsplit
  have hvalues : (∀ value ∈ config.values, '\'' ∉ value.toList) ↔
      ∀ text ∈ [config.test, config.hostFile, config.domain, config.protocol, config.ioSize,
        config.mdSize], '\'' ∉ text.toList := by
    simp [LauncherConfig.values, quote_not_mem_toDigits]
  rw [← hvalues, ← hsplit]
  constructor
  · rintro ⟨argv, hargv, -, rfl, -⟩
    exact hargv
  · intro h
    exact ⟨_, h, rfl, rfl, benchmarkInit_values lib hport hthreads self⟩

/-- A `ConfigParse` that takes paths as they are. -/
def plainPaths : ConfigParse := ⟨fun path => path, fun _ => ["node01", "node02"], fun _ => 0⟩

/-- A `ServerConfig` before `BenchmarkInit`. -/
def blankConfig : BenchmarkConfig := ⟨⟨⟨[], "", "", 0, 0⟩, 0, 0, 0, 0, "", false⟩, ""⟩

/-- The launcher's configuration for a host file. -/
def launch (hostFile : String) : LauncherConfig :=
  ⟨"ping", hostFile, "", "ofi+sockets", 8080, 4, "1m", "4k", 1, 0⟩

/-- A path with blanks and metacharacters in it, and an empty domain. -/
theorem reachesConfig_iff_blanks :
    ReachesConfig plainPaths (launch "/home/$USER/my hosts; *") blankConfig ↔
      ∀ text ∈ ["ping", "/home/$USER/my hosts; *", "", "ofi+sockets", "1m", "4k"],
        '\'' ∉ text.toList :=
  reachesConfig_iff plainPaths (launch "/home/$USER/my hosts; *") blankConfig (by decide)
    (by decide)

/-- **A host file in the home directory of `o'neil` leaves a quote of the command unclosed.** -/
theorem not_reachesConfig_oneil :
    (launch "/home/o'neil/hosts").start = "'chi_net_bench' 'ping' '/home/o'neil/hosts' '' " ++
        "'ofi+sockets' '8080' '4' '1m' '4k' '1' '0'" ∧
      shellSplit (launch "/home/o'neil/hosts").start = none ∧
      ¬ ReachesConfig plainPaths (launch "/home/o'neil/hosts") blankConfig := by
  have hnone : shellSplit (launch "/home/o'neil/hosts").start = none := by decide +kernel
  refine ⟨by decide +kernel, hnone, ?_⟩
  rintro ⟨argv, hargv, -⟩
  cases hnone.symm.trans hargv

end ChiNettest
