import ChiNettest.Machinery.Owned
import Mathlib.Algebra.Group.Int.Defs

/-!
# Fabric/FullPing — what `fullping` opens, and what it leaves open

`fullping` opens the objects of libfabric one on another — a fabric, a domain on it, an endpoint on
that — and has an exit of its own behind every call, each with its own list of what to close.

A client closes, for every host and whichever call fails, what it opened for it, and pings those
hosts whose endpoint it got (`pingAll_returns`).  A server closes everything if a call fails; if
none does, it returns 0 as well, with everything open (`main_leaves`).

What the calls that open something, listen or transfer return is a parameter, `Libfabric`.  Of
`fi_close` it is assumed that it closes what it is given: nobody looks at what it returns.
-/

namespace ChiNettest.FullPing

open Prog Owned

/-! ## Libfabric -/

/-- The objects of `fullping`: two lists of `fi_info`, and what is opened with them. -/
inductive Obj
  | hints
  | info
  | fabric
  | domain
  | ep
  | pep
  deriving DecidableEq, Repr

/-- What an object is opened on.  A list of `fi_info` is needed by no object opened with it. -/
def Obj.under : Obj → List Obj
  | hints | info | fabric => []
  | domain | pep => [fabric]
  | ep => [domain]

/-- What `fi_getinfo` is asked for. -/
structure InfoQuery where
  node : Option String
  service : String
  /-- `FI_SOURCE` -/
  source : Bool
  provName : String
  domainName : String
  deriving DecidableEq, Repr

/-- What the calls return, in turn `i` of the loop they are in; `fi_close` and `fi_freeinfo` are not
among them. -/
structure Libfabric where
  allocinfo : Bool
  getinfo : ℕ → InfoQuery → ℤ
  fabric : ℕ → ℤ
  domain : ℕ → ℤ
  endpoint : ℕ → ℤ
  passiveEp : ℕ → ℤ
  listen : ℕ → ℤ
  send : ℕ → ℤ
  recv : ℕ → ℤ
  strerror : ℤ → String

/-- What a run is seen to do. -/
inductive Line
  | stderr (text : String)
  /-- `fi_send` on the endpoint opened for `host` -/
  | send (host : String)
  /-- `fi_recv` on the endpoint opened for `host` -/
  | recv (host : String)
  deriving DecidableEq, Repr

/-- The host a line sends to. -/
def Line.sentTo : Line → Option String
  | send host => some host
  | stderr _ | recv _ => none

/-- A run of `fullping`. -/
abbrev PingProg (α : Type) : Type := OwnerProg Obj Line α

namespace Libfabric

variable (lib : Libfabric)

/-- What is printed of a call that returned `ret`. -/
def report (text : String) (ret : ℤ) : Option Line :=
  if ret ≠ 0 then some (.stderr (text ++ ": " ++ lib.strerror (-ret) ++ "\n")) else none

/-! ## `PingAll` -/

/-- The calls `PingAll` makes for a host, before it has an endpoint. -/
def hostCalls (query : InfoQuery) (host : String) (i : ℕ) : List (Attempt Obj Line) := [
  { needs := [.hints]
    failure := lib.report ("fi_getinfo failed for host " ++ host) (lib.getinfo i query)
    opens := some .info
    cleanup := [] },
  { needs := [.info]
    failure := lib.report "fi_fabric failed" (lib.fabric i)
    opens := some .fabric
    cleanup := [.info] },
  { needs := [.fabric, .info]
    failure := lib.report "fi_domain failed" (lib.domain i)
    opens := some .domain
    cleanup := [.fabric, .info] },
  { needs := [.domain, .info]
    failure := lib.report "fi_endpoint failed" (lib.endpoint i)
    opens := some .ep
    cleanup := [.domain, .fabric, .info] }]

/-- `fi_send` or `fi_recv`: a failure is printed. -/
def transfer (line : Line) (text : String) (ret : ℤ) : PingProg Unit := do
  touch .ep
  say line
  forEach (lib.report text ret).toList say

/-- What `PingAll` does with an endpoint. -/
def exchange (host : String) (i : ℕ) : PingProg Unit := do
  lib.transfer (.send host) "fi_send failed" (lib.send i)
  lib.transfer (.recv host) "fi_recv failed" (lib.recv i)
  forEach [.ep, .domain, .fabric, .info] (release Obj.under)

/-- What `PingAll` asks `fi_getinfo` for. -/
def hostQuery (domain provider port host : String) : InfoQuery :=
  ⟨some host, port, false, provider, domain⟩

/-- The body of the host loop of `PingAll`. -/
def pingHost (domain provider port host : String) (i : ℕ) : PingProg Unit :=
  tryAll Obj.under (lib.exchange host i) ()
    (lib.hostCalls (hostQuery domain provider port host) host i)

/-- `PingAll` -/
def pingAll (hosts : List String) (domain provider port : String) : PingProg ℕ :=
  if lib.allocinfo then do
    acquire Obj.under .hints
    touch .hints
    forEach hosts.zipIdx fun host => lib.pingHost domain provider port host.1 host.2
    release Obj.under .hints
    return 0
  else do
    say (.stderr "Failed to allocate hints\n")
    return 1

/-! ## `LaunchServer` -/

/-- The calls of `LaunchServer`. -/
def serverCalls (query : InfoQuery) : List (Attempt Obj Line) := [
  { needs := [.hints]
    failure := lib.report "fi_getinfo failed" (lib.getinfo 0 query)
    opens := some .info
    cleanup := [.hints] },
  { needs := [.info]
    failure := lib.report "fi_fabric failed" (lib.fabric 0)
    opens := some .fabric
    cleanup := [.info, .hints] },
  { needs := [.fabric, .info]
    failure := lib.report "fi_domain failed" (lib.domain 0)
    opens := some .domain
    cleanup := [.fabric, .info, .hints] },
  { needs := [.fabric, .info]
    failure := lib.report "fi_passive_ep failed" (lib.passiveEp 0)
    opens := some .pep
    cleanup := [.domain, .fabric, .info, .hints] },
  { needs := [.pep]
    failure := lib.report "fi_listen failed" (lib.listen 0)
    opens := none
    cleanup := [.pep, .domain, .fabric, .info, .hints] }]

/-- What `LaunchServer` asks `fi_getinfo` for. -/
def serverQuery (domain provider port : String) : InfoQuery :=
  ⟨none, port, true, provider, domain⟩

/-- `LaunchServer`, which reads no host. -/
def launchServer (_hosts : List String) (domain provider port : String) : PingProg ℕ :=
  if lib.allocinfo then do
    acquire Obj.under .hints
    touch .hints
    tryAll Obj.under (return 0) 1 (lib.serverCalls (serverQuery domain provider port))
  else do
    say (.stderr "Failed to allocate hints\n")
    return 1

/-! ## `main` -/

/-- The hosts of `main`: what `ParseHostfile` returns is not kept. -/
def loadHosts (parseHostfile : String → List String) (hostfilePath : String) : List String :=
  let hosts := []
  let _ := if hostfilePath ≠ "" then parseHostfile hostfilePath else []
  if hosts.length = 0 then hosts ++ ["localhost"] else hosts

/-- `main`, its arguments behind the name of the program. -/
def main (parseHostfile : String → List String) (argv0 : String) : List String → PingProg ℕ
  | hostfilePath :: domain :: provider :: port :: mode :: _ =>
    let hosts := loadHosts parseHostfile hostfilePath
    if mode = "server" then lib.launchServer hosts domain provider port
    else if mode = "client" then lib.pingAll hosts domain provider port
    else return 0
  | _ => do
    say (.stderr ("Usage: " ++ argv0 ++ " <hostfile> <domain> <provider> <port> <mode>\n"))
    return 1

/-! ## A client -/

/-- **The endpoint for a host is opened.** -/
def Opens (domain provider port host : String) (i : ℕ) : Prop :=
  lib.getinfo i (hostQuery domain provider port host) = 0 ∧ lib.fabric i = 0 ∧ lib.domain i = 0 ∧
    lib.endpoint i = 0

instance (domain provider port host : String) (i : ℕ) :
    Decidable (lib.Opens domain provider port host i) :=
  inferInstanceAs (Decidable (_ ∧ _ ∧ _ ∧ _))

/-- What is seen of a host. -/
def hostLines (domain provider port host : String) (i : ℕ) : List Line :=
  match (lib.hostCalls (hostQuery domain provider port host) host i).findSome? Attempt.failure with
  | some line => [line]
  | none =>
    .send host :: (lib.report "fi_send failed" (lib.send i)).toList ++
      .recv host :: (lib.report "fi_recv failed" (lib.recv i)).toList

variable {lib}

theorem report_eq_none {text : String} {ret : ℤ} : lib.report text ret = none ↔ ret = 0 := by
  rw [report]
  by_cases hret : ret = 0 <;> simp [hret]

theorem report_eq_some {text : String} {ret : ℤ} {line : Line}
    (h : lib.report text ret = some line) : ∃ message, line = .stderr message := by
  obtain ⟨-, hline⟩ := Option.ite_none_right_eq_some.mp h
  exact ⟨_, (Option.some.inj hline).symm⟩

/-- What is said of a chain of reported calls, where one fails, is an error. -/
theorem stderr_of_failure {calls : List (Attempt Obj Line)} {line : Line}
    (hreport : ∀ call ∈ calls, ∃ text ret, call.failure = lib.report text ret)
    (h : calls.findSome? Attempt.failure = some line) : ∃ message, line = .stderr message := by
  obtain ⟨call, hmem, hline⟩ := List.exists_of_findSome?_eq_some h
  obtain ⟨text, ret, hfailure⟩ := hreport call hmem
  exact report_eq_some (hfailure.symm.trans hline)

theorem sentTo_report (text : String) (ret : ℤ) :
    (lib.report text ret).toList.filterMap Line.sentTo = [] := by
  rw [report]
  split <;> rfl

section Host

variable {domain provider port host : String} {i : ℕ}

/-- Behind every call for a host stands a list of exactly what is open for it. -/
theorem cleansUp_hostCalls (query : InfoQuery) (host : String) (i : ℕ) :
    CleansUp Obj.under [.hints] [] (lib.hostCalls query host i) := by
  simp [CleansUp, hostCalls, Stacked, Obj.under]

theorem reports_hostCalls (query : InfoQuery) (host : String) (i : ℕ) :
    ∀ call ∈ lib.hostCalls query host i,
      ∃ text ret, call.failure = lib.report text ret := by
  simp only [hostCalls, List.forall_mem_cons]
  exact ⟨⟨_, _, rfl⟩, ⟨_, _, rfl⟩, ⟨_, _, rfl⟩, ⟨_, _, rfl⟩, nofun⟩

theorem failures_hostCalls :
    (∀ call ∈ lib.hostCalls (hostQuery domain provider port host) host i,
      call.failure = none) ↔ lib.Opens domain provider port host i := by
  simp only [hostCalls, List.forall_mem_cons, report_eq_none, Opens]
  simp

theorem runs_transfer (lib : Libfabric) (line : Line) (text : String) (ret : ℤ)
    {held : List Obj} (hep : .ep ∈ held) :
    Runs (lib.transfer line text ret) held () (line :: (lib.report text ret).toList) held := by
  have hlines : Runs (forEach (lib.report text ret).toList say : PingProg PUnit) held ⟨⟩
      ((lib.report text ret).toList.flatMap fun m => [m]) held :=
    runs_forEach fun m _ => runs_say m held
  rw [List.flatMap_singleton'] at hlines
  exact (runs_touch hep).seq ((runs_say line held).seq hlines)

/-- **An endpoint is pinged, and closed with all it was opened with.** -/
theorem runs_exchange (host : String) (i : ℕ) :
    Runs (lib.exchange host i) [.ep, .domain, .fabric, .info, .hints] ()
      (.send host :: (lib.report "fi_send failed" (lib.send i)).toList ++
        .recv host :: (lib.report "fi_recv failed" (lib.recv i)).toList) [.hints] := by
  have hstacked : Stacked Obj.under ([.ep, .domain, .fabric, .info] ++ [.hints]) := by decide
  have hep : Obj.ep ∈ [Obj.ep, .domain, .fabric, .info, .hints] := List.mem_cons_self
  have hreleases : Runs
      (forEach [.ep, .domain, .fabric, .info] (release Obj.under) : PingProg PUnit)
      [.ep, .domain, .fabric, .info, .hints] ⟨⟩ [] [.hints] := hstacked.runs_releases
  have hclose := (runs_transfer lib (.recv host) "fi_recv failed" (lib.recv i) hep).seq hreleases
  rw [List.append_nil] at hclose
  exact (runs_transfer lib (.send host) "fi_send failed" (lib.send i) hep).seq hclose

/-- **A host leaves nothing open**, whichever of its calls fails. -/
theorem runs_pingHost (domain provider port host : String) (i : ℕ) :
    Runs (lib.pingHost domain provider port host i) [.hints] ()
      (lib.hostLines domain provider port host i) [.hints] := by
  have hclean : CleansUp Obj.under [.hints] []
      (lib.hostCalls (hostQuery domain provider port host) host i) := cleansUp_hostCalls _ host i
  rw [pingHost, hostLines]
  cases hfail : (lib.hostCalls (hostQuery domain provider port host) host i).findSome?
    Attempt.failure with
  | some line =>
    have hstacked : Stacked Obj.under ([] ++ [.hints]) := by decide
    exact runs_tryAll_failed hstacked hclean hfail
  | none =>
    exact runs_tryAll_done hclean (List.findSome?_eq_none_iff.mp hfail) (runs_exchange host i)

/-- What is sent for a host: a ping, if it has an endpoint. -/
theorem sentTo_hostLines : (lib.hostLines domain provider port host i).filterMap Line.sentTo
    = if lib.Opens domain provider port host i then [host] else [] := by
  rw [hostLines]
  cases hfail : (lib.hostCalls (hostQuery domain provider port host) host i).findSome?
    Attempt.failure with
  | some line =>
    obtain ⟨message, rfl⟩ := stderr_of_failure (reports_hostCalls _ host i) hfail
    have hnot : ¬ lib.Opens domain provider port host i := fun h => by
      rw [List.findSome?_eq_none_iff.mpr (failures_hostCalls.mpr h)] at hfail
      cases hfail
    rw [if_neg hnot]
    rfl
  | none =>
    rw [if_pos (failures_hostCalls.mp (List.findSome?_eq_none_iff.mp hfail))]
    simp [List.filterMap_cons, sentTo_report, Line.sentTo]

end Host

/-- What is seen of a run of `PingAll`. -/
def clientLines (lib : Libfabric) (hosts : List String) (domain provider port : String) :
    List Line :=
  if lib.allocinfo then
    hosts.zipIdx.flatMap fun host => lib.hostLines domain provider port host.1 host.2
  else [.stderr "Failed to allocate hints\n"]

/-- The first object of a run. -/
theorem runs_hints {α : Type} {p : PingProg α} {a : α} {said : List Line} {held : List Obj}
    (hp : Runs p [.hints] a said held) :
    Runs (do acquire Obj.under .hints; touch .hints; p) [] a said held :=
  (runs_acquire List.not_mem_nil (by simp [Obj.under])).seq
    ((runs_touch List.mem_cons_self).seq hp)

theorem runs_pingAll (hosts : List String) (domain provider port : String) :
    Runs (lib.pingAll hosts domain provider port) [] (if lib.allocinfo then 0 else 1)
      (lib.clientLines hosts domain provider port) [] := by
  rw [pingAll, clientLines]
  split
  · have hloop : Runs (forEach hosts.zipIdx fun host =>
          lib.pingHost domain provider port host.1 host.2) [.hints] ⟨⟩
        (hosts.zipIdx.flatMap fun host => lib.hostLines domain provider port host.1 host.2)
        [.hints] := runs_forEach fun host _ => runs_pingHost domain provider port host.1 host.2
    have hstacked : Stacked Obj.under [.hints] := by decide
    have hclose := hloop.seq (hstacked.runs_release_top.seq (runs_pure 0 []))
    rw [List.append_nil, List.append_nil] at hclose
    exact runs_hints hclose
  · exact (runs_say _ []).seq (runs_pure 1 [])

/-- The pings of a run of `PingAll`. -/
theorem sentTo_clientLines (hosts : List String) (domain provider port : String) :
    (lib.clientLines hosts domain provider port).filterMap Line.sentTo
      = if lib.allocinfo then
          (hosts.zipIdx.filter fun host =>
            lib.Opens domain provider port host.1 host.2).map Prod.fst
        else [] := by
  rw [clientLines]
  split
  · induction hosts.zipIdx with
    | nil => rfl
    | cons host rest ih =>
      rw [List.flatMap_cons, List.filterMap_append, ih, sentTo_hostLines, List.filter_cons]
      by_cases hopens : lib.Opens domain provider port host.1 host.2 <;> simp [hopens]
  · rfl

/-! ## A server -/

/-- **Every call of the server succeeds.** -/
def Serves (lib : Libfabric) (domain provider port : String) : Prop :=
  lib.allocinfo ∧ lib.getinfo 0 (serverQuery domain provider port) = 0 ∧ lib.fabric 0 = 0 ∧
    lib.domain 0 = 0 ∧ lib.passiveEp 0 = 0 ∧ lib.listen 0 = 0

instance (domain provider port : String) : Decidable (lib.Serves domain provider port) :=
  inferInstanceAs (Decidable (_ ∧ _ ∧ _ ∧ _ ∧ _ ∧ _))

/-- What a server opens. -/
def serverObjs : List Obj := [.pep, .domain, .fabric, .info, .hints]

/-- Behind every call of the server stands a list of exactly what is open. -/
theorem cleansUp_serverCalls (query : InfoQuery) :
    CleansUp Obj.under [] [.hints] (lib.serverCalls query) := by
  simp [CleansUp, serverCalls, Stacked, Obj.under]

theorem reports_serverCalls (query : InfoQuery) :
    ∀ call ∈ lib.serverCalls query, ∃ text ret, call.failure = lib.report text ret := by
  simp only [serverCalls, List.forall_mem_cons]
  exact ⟨⟨_, _, rfl⟩, ⟨_, _, rfl⟩, ⟨_, _, rfl⟩, ⟨_, _, rfl⟩, ⟨_, _, rfl⟩, nofun⟩

theorem failures_serverCalls (halloc : lib.allocinfo) {domain provider port : String} :
    (∀ call ∈ lib.serverCalls (serverQuery domain provider port), call.failure = none) ↔
      lib.Serves domain provider port := by
  simp only [serverCalls, List.forall_mem_cons, report_eq_none, Serves, halloc]
  simp

/-- **A server that comes up leaves everything open**, and returns 0. -/
theorem runs_launchServer_serves {hosts : List String} {domain provider port : String}
    (h : lib.Serves domain provider port) :
    Runs (lib.launchServer hosts domain provider port) [] 0 [] serverObjs := by
  rw [launchServer, if_pos h.1]
  have hdone : Runs (pure 0 : PingProg ℕ) serverObjs 0 [] serverObjs := runs_pure 0 serverObjs
  exact runs_hints (runs_tryAll_done (cleansUp_serverCalls _)
    ((failures_serverCalls h.1).mpr h) hdone)

/-- **A server that does not come up leaves nothing open**, and prints one error. -/
theorem runs_launchServer_fails {hosts : List String} {domain provider port : String}
    (h : ¬ lib.Serves domain provider port) :
    ∃ message,
      Runs (lib.launchServer hosts domain provider port) [] 1 [.stderr message] [] := by
  rw [launchServer]
  split
  · rename_i halloc
    cases hfail : (lib.serverCalls (serverQuery domain provider port)).findSome?
      Attempt.failure with
    | none =>
      exact absurd ((failures_serverCalls halloc).mp (List.findSome?_eq_none_iff.mp hfail)) h
    | some line =>
      obtain ⟨message, rfl⟩ := stderr_of_failure (reports_serverCalls _) hfail
      have hstacked : Stacked Obj.under ([.hints] ++ []) := by decide
      exact ⟨message, runs_hints (runs_tryAll_failed hstacked (cleansUp_serverCalls _) hfail)⟩
  · exact ⟨_, (runs_say _ []).seq (runs_pure 1 [])⟩

/-! ## `main` -/

/-- **The host file is read for nothing.** -/
theorem loadHosts_eq (parseHostfile : String → List String) (hostfilePath : String) :
    loadHosts parseHostfile hostfilePath = ["localhost"] := rfl

/-- A client of `main` pings `localhost` or nobody. -/
theorem eq_localhost_of_send {domain provider port host : String}
    (h : .send host ∈ lib.clientLines ["localhost"] domain provider port) :
    host = "localhost" := by
  have hsent : host ∈ (lib.clientLines ["localhost"] domain provider port).filterMap Line.sentTo :=
    List.mem_filterMap.mpr ⟨.send host, h, rfl⟩
  rw [sentTo_clientLines] at hsent
  split at hsent
  · obtain ⟨entry, hentry, rfl⟩ := List.mem_map.mp hsent
    rw [List.mem_singleton.mp (List.mem_of_mem_filter hentry)]
  · cases hsent

/-- A run that leaves open what a server opens, if `served`, and nothing otherwise. -/
theorem leaves_of_runs {p : PingProg ℕ} {served : Prop} {code : ℕ} {said : List Line}
    {held : List Obj} (hp : Runs p [] code said held)
    (hheld : served ∧ code = 0 ∧ held = serverObjs ∨ ¬ served ∧ held = [])
    (hsent : ∀ host, .send host ∈ said → host = "localhost") :
    ∃ code t, p.run {} = some (.ok code, t) ∧ (t.held ≠ [] ↔ served) ∧
      (t.held ≠ [] → code = 0 ∧ t.held = serverObjs) ∧
      ∀ host, .send host ∈ t.log → host = "localhost" := by
  refine ⟨code, _, hp [], ?_, ?_, hsent⟩
  · obtain ⟨hserved, -, rfl⟩ | ⟨hnot, rfl⟩ := hheld
    · exact iff_of_true (by simp [serverObjs]) hserved
    · exact iff_of_false (fun h => h rfl) hnot
  · intro hopen
    obtain ⟨-, hend⟩ | ⟨-, rfl⟩ := hheld
    · exact hend
    · exact absurd rfl hopen

end Libfabric

/-- **A client pings the hosts it gets an endpoint for, and leaves nothing open**: in a run of
`PingAll`, whatever libfabric's calls return, no object is used, closed or opened upon that is not
open, none is closed under another, and none is open at the end. -/
theorem pingAll_returns (lib : Libfabric) (hosts : List String) (domain provider port : String) :
    ∃ t, (lib.pingAll hosts domain provider port).run {}
        = some (.ok (if lib.allocinfo then 0 else 1), t) ∧ t.held = [] ∧
      t.log = lib.clientLines hosts domain provider port ∧
      t.log.filterMap Line.sentTo = if lib.allocinfo then
        (hosts.zipIdx.filter fun host => lib.Opens domain provider port host.1 host.2).map Prod.fst
      else [] :=
  ⟨_, Libfabric.runs_pingAll hosts domain provider port [], rfl, rfl,
    Libfabric.sentTo_clientLines hosts domain provider port⟩

/-- **What a run of `fullping` leaves open**, whatever libfabric's calls return and whatever is in
the host file: everything a server opens, exactly if it is run as a server and all its calls
succeed, and then it returns 0; nothing otherwise.  It pings no host but `localhost`. -/
theorem main_leaves (lib : Libfabric) (parseHostfile : String → List String) (argv0 : String)
    (args : List String) :
    ∃ code t, (lib.main parseHostfile argv0 args).run {} = some (.ok code, t) ∧
      (t.held ≠ [] ↔ ∃ hostfilePath domain provider port rest,
        args = hostfilePath :: domain :: provider :: port :: "server" :: rest ∧
          lib.Serves domain provider port) ∧
      (t.held ≠ [] → code = 0 ∧ t.held = Libfabric.serverObjs) ∧
      ∀ host, .send host ∈ t.log → host = "localhost" := by
  match args with
  | [] | [_] | [_, _] | [_, _, _] | [_, _, _, _] =>
    exact Libfabric.leaves_of_runs ((runs_say _ []).seq (runs_pure 1 [])) (.inr ⟨by simp, rfl⟩)
      (by simp)
  | hostfilePath :: domain :: provider :: port :: mode :: rest =>
    have hargs : (∃ hostfilePath' domain' provider' port' rest',
        hostfilePath :: domain :: provider :: port :: mode :: rest
          = hostfilePath' :: domain' :: provider' :: port' :: "server" :: rest' ∧
        lib.Serves domain' provider' port') ↔
          mode = "server" ∧ lib.Serves domain provider port := by
      simp
    rw [hargs, Libfabric.main, Libfabric.loadHosts_eq]
    split_ifs with hserver hclient
    · by_cases hserves : lib.Serves domain provider port
      · exact Libfabric.leaves_of_runs (Libfabric.runs_launchServer_serves hserves)
          (.inl ⟨⟨hserver, hserves⟩, rfl, rfl⟩) nofun
      · obtain ⟨message, hrun⟩ := Libfabric.runs_launchServer_fails hserves
        exact Libfabric.leaves_of_runs hrun (.inr ⟨fun h => hserves h.2, rfl⟩) (by simp)
    · exact Libfabric.leaves_of_runs (Libfabric.runs_pingAll ["localhost"] domain provider port)
        (.inr ⟨fun h => hserver h.1, rfl⟩) fun host => Libfabric.eq_localhost_of_send
    · exact Libfabric.leaves_of_runs (runs_pure 0 []) (.inr ⟨fun h => hserver h.1, rfl⟩) nofun

end ChiNettest.FullPing
