import ChiNettest.Rpc.Identity

/-!
# Rpc/Address — the address a node listens on, and the name a client dials

    GetRpcAddress   shm   or   protocol://[domain/]hostname:port
    GetServerName              protocol://ip_addr:port

An `Endpoint` is what either string denotes, and `dial` turns the endpoint a server opens into the
one a client should look up: no domain, the resolved address in place of the host name.
`getRpcAddress` renders the listening endpoint (`getRpcAddress_eq_render`).  `getServerName` renders
its `dial` under every protocol but `shm`, which it builds an `ip:port` name for as well
(`getServerName_dials_listener_iff`).
-/

namespace ChiNettest

namespace RpcContext

/-- `RpcContext::GetRpcAddress`.  The protocol and the domain are read through `config_`. -/
def getRpcAddress (ctx : RpcContext) (nodeId : NodeId) (port : ℤ) : Except Exn String :=
  if ctx.config.rpc.protocol = "shm" then .ok "shm"
  else do
    let result := ctx.config.rpc.protocol ++ "://"
    let result :=
      if ctx.config.rpc.domain ≠ "" then result ++ ctx.config.rpc.domain ++ "/" else result
    let hostName ← ctx.getHostNameFromNodeId nodeId
    return result ++ hostName ++ ":" ++ toString port

/-- `RpcContext::GetMyRpcAddress`. -/
def getMyRpcAddress (ctx : RpcContext) : Except Exn String :=
  ctx.getRpcAddress ctx.nodeId ctx.port

/-- `ThalliumRpc::GetServerName`.  The protocol is the copy in the context. -/
def getServerName (ctx : RpcContext) (nodeId : NodeId) : Except Exn String := do
  let ipAddress ← ctx.getIpAddressFromNodeId nodeId
  return ctx.protocol ++ "://" ++ ipAddress ++ ":" ++ toString ctx.port

end RpcContext

/-! ## Endpoints -/

/-- What an address denotes: shared memory, or a port of a host under a protocol, the domain
optional (empty when absent). -/
inductive Endpoint
  | shm
  | net (protocol domain host : String) (port : ℤ)
  deriving DecidableEq, Repr

namespace Endpoint

/-- The domain component of an address. -/
def renderDomain (domain : String) : String := if domain = "" then "" else domain ++ "/"

/-- The address of an endpoint. -/
def render : Endpoint → String
  | shm => "shm"
  | net protocol domain host port =>
    protocol ++ "://" ++ renderDomain domain ++ host ++ ":" ++ toString port

/-- The endpoint to look up in order to reach this one: the domain dropped, the host replaced by
the address it resolved to. -/
def dial (ipAddr : String) : Endpoint → Endpoint
  | shm => shm
  | net protocol _ _ port => net protocol "" ipAddr port

end Endpoint

/-- The endpoint a node opens under a configuration. -/
def ServerConfig.listener (config : ServerConfig) (hostname : String) : Endpoint :=
  if config.rpc.protocol = "shm" then .shm
  else .net config.rpc.protocol config.rpc.domain hostname config.rpc.port

/-- **`GetRpcAddress` is the address of the listening endpoint.** -/
theorem RpcContext.getRpcAddress_eq_render {ctx : RpcContext} {nodeId : NodeId} {host : HostInfo}
    (hgood : ¬ BadNode ctx.hosts nodeId) (hentry : ctx.hosts[nodeId.toNat - 1]? = some host) :
    ctx.getRpcAddress nodeId ctx.config.rpc.port
      = .ok (ctx.config.listener host.hostname).render := by
  obtain ⟨host', hentry', hname⟩ := ctx.getHostField_eq HostInfo.hostname .fatal hgood
  have hsame : host' = host := Option.some.inj (hentry'.symm.trans hentry)
  have hget : ctx.getHostNameFromNodeId nodeId = .ok host.hostname := hsame ▸ hname
  by_cases hshm : ctx.config.rpc.protocol = "shm"
  · simp [getRpcAddress, ServerConfig.listener, hshm, Endpoint.render]
  · by_cases hdom : ctx.config.rpc.domain = "" <;>
      simp [getRpcAddress, ServerConfig.listener, hshm, hdom, hget, Endpoint.render,
        Endpoint.renderDomain, bind, Except.bind, pure, Except.pure, String.append_assoc]

/-- **`GetServerName` is a network name under every protocol**, the shared-memory one included. -/
theorem RpcContext.getServerName_eq_render {ctx : RpcContext} {nodeId : NodeId} {host : HostInfo}
    (hgood : ¬ BadNode ctx.hosts nodeId) (hentry : ctx.hosts[nodeId.toNat - 1]? = some host) :
    ctx.getServerName nodeId = .ok (Endpoint.net ctx.protocol "" host.ipAddr ctx.port).render := by
  obtain ⟨host', hentry', haddr⟩ := ctx.getHostField_eq HostInfo.ipAddr .runtimeError hgood
  have hsame : host' = host := Option.some.inj (hentry'.symm.trans hentry)
  have hget : ctx.getIpAddressFromNodeId nodeId = .ok host.ipAddr := hsame ▸ haddr
  simp [getServerName, hget, Endpoint.render, Endpoint.renderDomain, bind, Except.bind, pure,
    Except.pure, String.append_assoc]

/-! ## Dialling the listener -/

/-- **The name a client looks up for a node denotes the endpoint that node opens**: the entry of
the node holds a resolved host name, the address it listens on renders its endpoint, and the name
to look up renders the `dial` of it. -/
def DialsListener (res : Resolver) (ctx : RpcContext) (nodeId : NodeId) : Prop :=
  ∃ host, ctx.hosts[nodeId.toNat - 1]? = some host ∧
    getIpAddress res host.hostname = .ok host.ipAddr ∧
    ctx.getRpcAddress nodeId ctx.port = .ok (ctx.config.listener host.hostname).render ∧
    ctx.getServerName nodeId
      = .ok ((ctx.config.listener host.hostname).dial host.ipAddr).render

/-- A network address is never the address of shared memory. -/
theorem Endpoint.render_net_ne_shm (protocol domain host : String) (port : ℤ) :
    (net protocol domain host port).render ≠ shm.render := by
  intro h
  have hlen := congrArg String.length h
  have hsep : "://".length = 3 := rfl
  have hcolon : ":".length = 1 := rfl
  have hshm : "shm".length = 3 := rfl
  simp only [render, String.length_append] at hlen
  omega

section Table

variable {res : Resolver} {fab : Fabric} {config : ServerConfig} {ctx₀ ctx : RpcContext}

/-- `ServerInit` leaves the same protocol and port in the context and behind `config_`. -/
theorem serverInit_config (hfresh : ctx₀.hosts = [])
    (h : ctx₀.serverInit res fab config = .ok ctx) :
    ctx.config = config ∧ ctx.protocol = config.rpc.protocol ∧ ctx.port = config.rpc.port := by
  obtain ⟨hosts, i, host, -, -, -, -, rfl⟩ := RpcContext.serverInit_of_fresh hfresh h
  exact ⟨rfl, rfl, rfl⟩

/-- **Every entry of a table `ServerInit` built holds the address its host name resolved to.** -/
theorem serverInit_resolved (hfresh : ctx₀.hosts = [])
    (h : ctx₀.serverInit res fab config = .ok ctx) {i : ℕ} {host : HostInfo}
    (hentry : ctx.hosts[i]? = some host) : getIpAddress res host.hostname = .ok host.ipAddr := by
  obtain ⟨hosts, j, this, hhosts, hfirst, -, -, rfl⟩ := RpcContext.serverInit_of_fresh hfresh h
  have hresolved : ∀ (k : ℕ) (other : HostInfo), hosts[k]? = some other →
      getIpAddress res other.hostname = .ok other.ipAddr := by
    intro k other hother
    obtain ⟨name, -, hip, hname, -⟩ := (getElem?_emplaceHosts hhosts k other).mp hother
    exact hname ▸ hip
  cases hl : config.localOnly with
  | false => exact hresolved i host (by simpa [hl] using hentry)
  | true =>
    have hone : [{ this with nodeId := 1 }][i]? = some host := by simpa [hl] using hentry
    obtain rfl : host = { this with nodeId := 1 } := by simpa using List.mem_of_getElem? hone
    exact hresolved j this hfirst.entry

/-- **Clients dial the address the server listens on exactly when the protocol is not `shm`** — on
every node id of the table that the getters' own range test accepts, which is every one of a table
shorter than `2 ^ 32`. -/
theorem getServerName_dials_listener_iff (res : Resolver) (fab : Fabric) (config : ServerConfig)
    (ctx₀ ctx : RpcContext) (hfresh : ctx₀.hosts = [])
    (h : ctx₀.serverInit res fab config = .ok ctx) (nodeId : NodeId) (hpos : 0 < nodeId.toNat)
    (hle : nodeId.toNat ≤ ctx.numHosts) :
    DialsListener res ctx nodeId ↔
      config.rpc.protocol ≠ "shm" ∧ ¬ BadNode ctx.hosts nodeId := by
  obtain ⟨hconfig, hprotocol, hport⟩ := serverInit_config hfresh h
  have hindex : nodeId.toNat - 1 < ctx.hosts.length := by
    have : ctx.numHosts = ctx.hosts.length := rfl
    omega
  by_cases hbad : BadNode ctx.hosts nodeId
  · refine iff_of_false ?_ fun hcond => hcond.2 hbad
    rintro ⟨host, -, -, -, hname⟩
    simp [RpcContext.getServerName, RpcContext.getIpAddressFromNodeId, RpcContext.getHostField,
      hbad, bind, Except.bind] at hname
  · have hentry := List.getElem?_eq_getElem hindex
    have hname := RpcContext.getServerName_eq_render hbad hentry
    have haddr := RpcContext.getRpcAddress_eq_render hbad hentry
    rw [hconfig, ← hport] at haddr
    rw [hprotocol, hport] at hname
    constructor
    · rintro ⟨host, hentry', -, -, hdial⟩
      refine ⟨fun hshm => ?_, hbad⟩
      have hsame := Except.ok.inj (hname.symm.trans hdial)
      simp only [hconfig, ServerConfig.listener, hshm, if_true, Endpoint.dial] at hsame
      exact Endpoint.render_net_ne_shm _ _ _ _ hsame
    · rintro ⟨hshm, -⟩
      refine ⟨_, hentry, serverInit_resolved hfresh h hentry, hconfig.symm ▸ haddr, ?_⟩
      rw [hname, hconfig, ServerConfig.listener, if_neg hshm]
      rfl

/-- One machine, itself its host file, under a protocol other than `shm`. -/
theorem getServerName_dials_listener_iff_sockets :
    DialsListener addressesOnly
        (contextAt ["10.0.0.1"] "ofi+sockets" [⟨"10.0.0.1", "10.0.0.1", 1⟩] 1) 1 ↔
      "ofi+sockets" ≠ "shm" ∧ ¬ BadNode [⟨"10.0.0.1", "10.0.0.1", 1⟩] 1 :=
  getServerName_dials_listener_iff addressesOnly (oneInterface ⟨10, 0, 0, 1⟩)
    (configOf ["10.0.0.1"] "ofi+sockets") freshContext
    (contextAt ["10.0.0.1"] "ofi+sockets" [⟨"10.0.0.1", "10.0.0.1", 1⟩] 1) rfl (by decide) 1
    (by decide) (by decide)

/-- **Under `shm` the server opens `shm` and its clients look up `shm://10.0.0.1:8080`.** -/
theorem getServerName_misses_shm :
    freshContext.serverInit addressesOnly (oneInterface ⟨10, 0, 0, 1⟩) (configOf ["10.0.0.1"] "shm")
        = .ok (contextAt ["10.0.0.1"] "shm" [⟨"10.0.0.1", "10.0.0.1", 1⟩] 1) ∧
      (contextAt ["10.0.0.1"] "shm" [⟨"10.0.0.1", "10.0.0.1", 1⟩] 1).getMyRpcAddress = .ok "shm" ∧
      (contextAt ["10.0.0.1"] "shm" [⟨"10.0.0.1", "10.0.0.1", 1⟩] 1).getServerName 1
        = .ok "shm://10.0.0.1:8080" ∧
      ¬ DialsListener addressesOnly
        (contextAt ["10.0.0.1"] "shm" [⟨"10.0.0.1", "10.0.0.1", 1⟩] 1) 1 := by
  refine ⟨by decide, by decide, by decide, ?_⟩
  rintro ⟨host, hentry, -, -, hname⟩
  have hserver : (contextAt ["10.0.0.1"] "shm" [⟨"10.0.0.1", "10.0.0.1", 1⟩] 1).getServerName 1
      = .ok "shm://10.0.0.1:8080" := by decide
  have hshm : ((contextAt ["10.0.0.1"] "shm" [⟨"10.0.0.1", "10.0.0.1", 1⟩] 1).config.listener
      host.hostname).dial host.ipAddr = .shm := by
    simp [contextAt, configOf, ServerConfig.listener, Endpoint.dial]
  rw [hserver, hshm] at hname
  exact absurd (Except.ok.inj hname) (by decide)

end Table

end ChiNettest
