import ChiNettest.Find.HostFile
import ChiNettest.Machinery.Text
import ChiNettest.Rpc.Deployment

/-!
# Find/Deployment — the host file `chi_net_find` writes, read by `ServerInit`

The two programs meet in a file: `chi_net_find`, run with one rank on each machine, writes the
address each rank found, and the benchmark on the same machines takes its nodes from that file.

The addresses found come back from the file as they were printed, and resolve to themselves.  So the
machines of the ranks that found one become the nodes, in rank order, and those of the others do not
start (`serverInit_of_gathered`).
-/

namespace ChiNettest

/-! ## What a rank finds -/

/-- The address of the first entry on the fabric. -/
def foundOn (fabric : List UInt8) (info : List FabricInfo) : Option InAddr :=
  info.findSome? fun cur => if cur.fabricName = some fabric then cur.srcAddr else none

theorem firstOnFabric_eq (fabric : List UInt8) : ∀ info : List FabricInfo,
    firstOnFabric fabric info
      = ((foundOn fabric info).map fun addr => asciiBytes (inetNtop addr)).getD []
  | [] => rfl
  | ⟨srcAddr, fabricName⟩ :: info => by
      have ih := firstOnFabric_eq fabric info
      rw [foundOn, List.findSome?_cons]
      cases srcAddr with
      | none =>
        rw [firstOnFabric, ih, ite_self]
        rfl
      | some addr =>
        cases fabricName with
        | none =>
          rw [firstOnFabric, ih]
          rfl
        | some testFabric =>
          change (if testFabric = fabric then _ else firstOnFabric fabric info) = _
          by_cases hfabric : testFabric = fabric
          · rw [if_pos hfabric, hfabric, if_pos rfl]
            rfl
          · rw [if_neg hfabric, ih, if_neg fun hname => hfabric (Option.some.inj hname)]
            rfl

/-- A machine of the job: what `fi_getinfo` answers `find_ip_from_fabric` there, what `local_ip`
holds before, and what `fi_getinfo` answers the benchmark. -/
structure JobMachine where
  getinfo : Option (List FabricInfo)
  localIp : Slot
  fab : Fabric

namespace JobMachine

/-- Its rank of `chi_net_find`. -/
def rank (fabric : List UInt8) (machine : JobMachine) : FindRank :=
  ⟨machine.localIp, findIpFromFabric machine.getinfo fabric⟩

/-- The address the rank finds. -/
def found (fabric : List UInt8) (machine : JobMachine) : Option InAddr :=
  machine.getinfo.bind (foundOn fabric)

theorem ip_rank (fabric : List UInt8) (machine : JobMachine) :
    (machine.rank fabric).ip
      = ((machine.found fabric).map fun addr => asciiBytes (inetNtop addr)).getD [] := by
  rw [rank, found]
  cases machine.getinfo with
  | none => rfl
  | some info => exact firstOnFabric_eq fabric info

end JobMachine

/-- The lines of the addresses found. -/
def hostLines (addrs : List InAddr) : List (List UInt8) :=
  addrs.map fun addr => asciiBytes (inetNtop addr)

/-- A printed address is not empty. -/
theorem asciiBytes_inetNtop_ne_nil (addr : InAddr) : asciiBytes (inetNtop addr) ≠ [] := by
  intro hnil
  have hchars : (inetNtop addr).toList = [] := List.map_eq_nil_iff.mp hnil
  have hdot := addr.toList_inetNtop
  rw [hchars] at hdot
  simp [InAddr.octets] at hdot

/-- What the ranks send, the empty texts apart, is the addresses found. -/
theorem filter_ips (fabric : List UInt8) : ∀ machines : List JobMachine,
    ((machines.map (JobMachine.rank fabric)).map FindRank.ip).filter (· ≠ [])
      = hostLines (machines.filterMap (JobMachine.found fabric))
  | [] => rfl
  | machine :: machines => by
      have ih := filter_ips fabric machines
      rw [List.map_cons, List.map_cons, List.filter_cons, ih, machine.ip_rank fabric,
        List.filterMap_cons]
      cases machine.found fabric with
      | none => simp
      | some addr => simp [asciiBytes_inetNtop_ne_nil, hostLines]

/-- **The ranks of a job gather the addresses they found.** -/
theorem chiNetFind_found {mpiGather : List Slot → List UInt8} (hgather : GathersInOrder mpiGather)
    {machines : List JobMachine} (hsize : machines.length * maxIpLen < 2 ^ 31)
    (fabric : List UInt8) :
    chiNetFind mpiGather (machines.map (JobMachine.rank fabric)) = .ok
      ((hostLines (machines.filterMap (JobMachine.found fabric))).flatMap
        (· ++ asciiBytes "\n")) := by
  have hfits : ∀ rank ∈ machines.map (JobMachine.rank fabric), FitsSlot rank.ip :=
    List.forall_mem_map.mpr fun machine _ => findIpFromFabric_fits machine.getinfo fabric
  have hranks : (machines.map (JobMachine.rank fabric)).length * maxIpLen < 2 ^ 31 := by
    rwa [List.length_map]
  rw [chiNetFind_lines hgather hranks hfits, flatMap_lineOf, filter_ips]

/-! ## The file, read back -/

/-- **`ParseHostfile` reads a file of addresses line by line.** -/
def ReadsAddresses (parseHostfile : List UInt8 → List String) : Prop :=
  ∀ addrs : List InAddr,
    parseHostfile ((hostLines addrs).flatMap (· ++ asciiBytes "\n")) = addrs.map inetNtop

/-- An address resolves to itself. -/
theorem addressOf_inetNtop (res : Resolver) (addr : InAddr) :
    addressOf res (inetNtop addr) = some (inetNtop addr) := by
  rw [addressOf, if_pos (IsDottedQuad.looksLikeIp ⟨addr, rfl⟩)]

/-- **The line of a rank that found an address** is as far down the file as there are ranks before
it that found one. -/
theorem getElem?_founds {α β : Type*} {f : α → Option β} {l : List α} {r : ℕ} {a : α} {b : β}
    (hr : l[r]? = some a) (hf : f a = some b) :
    (l.filterMap f)[((l.take r).filterMap f).length]? = some b := by
  obtain ⟨hlt, rfl⟩ := List.getElem?_eq_some_iff.mp hr
  have hsplit : l.filterMap f
      = (l.take r).filterMap f ++ b :: (l.drop (r + 1)).filterMap f := by
    conv_lhs => rw [← List.take_append_drop r l, List.drop_eq_getElem_cons hlt]
    rw [List.filterMap_append, List.filterMap_cons, hf]
  rw [hsplit, List.getElem?_append_right le_rfl, Nat.sub_self, List.getElem?_cons_zero]

/-- The lines before it are those of earlier ranks. -/
theorem exists_earlier_rank {α β : Type*} {f : α → Option β} {l : List α} {r j : ℕ} {b : β}
    (hj : (l.filterMap f)[j]? = some b) (hlt : j < ((l.take r).filterMap f).length) :
    ∃ q < r, ∃ a, l[q]? = some a ∧ f a = some b := by
  have hsplit : l.filterMap f = (l.take r).filterMap f ++ (l.drop r).filterMap f := by
    rw [← List.filterMap_append, List.take_append_drop]
  rw [hsplit, List.getElem?_append_left hlt] at hj
  obtain ⟨a, ha, hf⟩ := List.mem_filterMap.mp (List.mem_of_getElem? hj)
  obtain ⟨q, hq⟩ := List.mem_iff_getElem?.mp ha
  have hqr : q < r := by
    have hlen := (List.getElem?_eq_some_iff.mp hq).1
    rw [List.length_take] at hlen
    omega
  exact ⟨q, hqr, a, by rwa [List.getElem?_take_of_lt hqr] at hq, hf⟩

section Gathered

variable {res : Resolver} {fabric : List UInt8} {machines : List JobMachine}

/-- **An address found is local to the machine that found it, and to no other.** -/
def FindsOwn (fabric : List UInt8) (machines : List JobMachine) : Prop :=
  ∀ (r : ℕ) (machine : JobMachine) (addr : InAddr), machines[r]? = some machine →
    machine.found fabric = some addr →
    ∀ (q : ℕ) (other : JobMachine), machines[q]? = some other →
      (other.fab.IsLocal (inetNtop addr) ↔ q = r)

/-- The lines of the gathered file that are a machine's. -/
theorem localAt_gathered_iff {fab : Fabric} {i : ℕ} :
    LocalAt res fab ((machines.filterMap (JobMachine.found fabric)).map inetNtop) i ↔
      ∃ addr, (machines.filterMap (JobMachine.found fabric))[i]? = some addr ∧
        fab.IsLocal (inetNtop addr) := by
  constructor
  · rintro ⟨name, text, hname, htext, hlocal⟩
    rw [List.getElem?_map] at hname
    obtain ⟨addr, haddr, rfl⟩ := Option.map_eq_some_iff.mp hname
    obtain rfl := Option.some.inj ((addressOf_inetNtop res addr).symm.trans htext)
    exact ⟨addr, haddr, hlocal⟩
  · rintro ⟨addr, haddr, hlocal⟩
    exact ⟨inetNtop addr, inetNtop addr, by rw [List.getElem?_map, haddr]; rfl,
      addressOf_inetNtop res addr, hlocal⟩

/-- **The first line that is the machine's is the one its rank wrote.** -/
theorem firstLine_gathered (hown : FindsOwn fabric machines) {r : ℕ} {machine : JobMachine}
    (hr : machines[r]? = some machine) {addr : InAddr} (haddr : machine.found fabric = some addr) :
    FirstLine res machine.fab ((machines.filterMap (JobMachine.found fabric)).map inetNtop)
      ((machines.take r).filterMap (JobMachine.found fabric)).length where
  isLocal := localAt_gathered_iff.mpr
    ⟨addr, getElem?_founds hr haddr, (hown r machine addr hr haddr r machine hr).mpr rfl⟩
  first j hj hlocal := by
    obtain ⟨other, hother, hlocal⟩ := localAt_gathered_iff.mp hlocal
    obtain ⟨q, hqr, finder, hq, hfound⟩ := exists_earlier_rank hother hj
    have hsame : r = q := (hown q finder other hq hfound r machine hr).mp hlocal
    omega

/-- A machine whose rank found nothing has no line. -/
theorem not_localAt_gathered (hown : FindsOwn fabric machines) {r : ℕ} {machine : JobMachine}
    (hr : machines[r]? = some machine) (hnone : machine.found fabric = none) (i : ℕ) :
    ¬ LocalAt res machine.fab ((machines.filterMap (JobMachine.found fabric)).map inetNtop) i := by
  intro hlocal
  obtain ⟨addr, haddr, hlocal⟩ := localAt_gathered_iff.mp hlocal
  obtain ⟨finder, hfinder, hfound⟩ := List.mem_filterMap.mp (List.mem_of_getElem? haddr)
  obtain ⟨q, hq⟩ := List.mem_iff_getElem?.mp hfinder
  obtain rfl : r = q := (hown q finder addr hq hfound r machine hr).mp hlocal
  obtain rfl := Option.some.inj (hr.symm.trans hq)
  exact absurd (hnone.symm.trans hfound) (by simp)

end Gathered

/-- The configuration of a run over a host file that lists `names`. -/
def ServerConfig.over (config : ServerConfig) (names : List String) : ServerConfig :=
  { config with rpc := { config.rpc with hostNames := names } }

/-- **The machines of `chi_net_find` are the nodes of the benchmark, in rank order.**  Where every
address found is one of the finder's own and of no other machine, the benchmark started on the file
they gathered starts on the machines whose ranks found one, each numbered by how many ranks up to
its own did, and on no other. -/
theorem serverInit_of_gathered {mpiGather : List Slot → List UInt8}
    (hgather : GathersInOrder mpiGather) {parseHostfile : List UInt8 → List String}
    (hparse : ReadsAddresses parseHostfile) {fabric : List UInt8} {machines : List JobMachine}
    (hsize : machines.length * maxIpLen < 2 ^ 31) (hown : FindsOwn fabric machines)
    (res : Resolver) {config : ServerConfig} (hall : config.localOnly = false) {ctx₀ : RpcContext}
    (hfresh : ctx₀.hosts = []) :
    ∃ file, chiNetFind mpiGather (machines.map (JobMachine.rank fabric)) = .ok file ∧
      ∀ (r : ℕ) (machine : JobMachine), machines[r]? = some machine →
        ((machine.found fabric).isSome →
          ∃ ctx, ctx₀.serverInit res machine.fab (config.over (parseHostfile file)) = .ok ctx ∧
            ctx.nodeId.toNat
              = ((machines.take r).filterMap (JobMachine.found fabric)).length + 1) ∧
        (machine.found fabric = none →
          ∀ ctx, ctx₀.serverInit res machine.fab (config.over (parseHostfile file)) ≠ .ok ctx) := by
  have hshort : (machines.filterMap (JobMachine.found fabric)).length < 2 ^ 31 := by
    have hle := List.length_filterMap_le (JobMachine.found fabric) machines
    have hbound : machines.length ≤ machines.length * maxIpLen :=
      Nat.le_mul_of_pos_right _ (by decide)
    omega
  refine ⟨_, chiNetFind_found hgather hsize fabric, fun r machine hr => ?_⟩
  rw [hparse]
  have hover : (config.over ((machines.filterMap (JobMachine.found fabric)).map
      inetNtop)).localOnly = false := hall
  have hnames : (config.over ((machines.filterMap (JobMachine.found fabric)).map
      inetNtop)).rpc.hostNames.length < 2 ^ 31 := by
    change ((machines.filterMap (JobMachine.found fabric)).map inetNtop).length < 2 ^ 31
    rwa [List.length_map]
  refine ⟨fun hsome => ?_, fun hnone ctx hctx => ?_⟩
  · obtain ⟨addr, haddr⟩ := Option.isSome_iff_exists.mp hsome
    refine (serverInit_ok_iff hfresh hover hnames _).mpr
      ⟨fun name hname => ?_, firstLine_gathered hown hr haddr⟩
    obtain ⟨other, -, rfl⟩ := List.mem_map.mp hname
    rw [addressOf_inetNtop]
    rfl
  · obtain ⟨i, -, hline⟩ := exists_firstLine hfresh hover hnames hctx
    exact not_localAt_gathered hown hr hnone i hline.isLocal

/-! ### Three machines, one of which finds nothing -/

/-- The text of a line. -/
def asciiText (line : List UInt8) : String := String.ofList (line.map fun b => Char.ofNat b.toNat)

/-- A reader of files of terminated lines. -/
def readLines (file : List UInt8) : List String := (linesOf 10 file).map asciiText

/-- A printed address is read back as it was printed, and has no line break in it. -/
theorem asciiText_inetNtop (addr : InAddr) :
    asciiText (asciiBytes (inetNtop addr)) = inetNtop addr ∧ 10 ∉ asciiBytes (inetNtop addr) := by
  have hcode : ∀ c ∈ (inetNtop addr).toList, 46 ≤ c.toNat ∧ c.toNat ≤ 57 := by
    intro c hc
    have hchar : c.toNat = 46 ∨ (48 ≤ c.toNat ∧ c.toNat ≤ 57) :=
      (mem_inetNtop hc).imp (congrArg Char.toNat) Char.isDigit_iff_toNat.mp
    omega
  constructor
  · have hchars : (asciiBytes (inetNtop addr)).map (fun b => Char.ofNat b.toNat)
        = (inetNtop addr).toList := by
      rw [asciiBytes, List.map_map]
      conv_rhs => rw [← List.map_id (inetNtop addr).toList]
      refine List.map_congr_left fun c hc => ?_
      have hbyte : (UInt8.ofNat c.toNat).toNat = c.toNat :=
        Nat.mod_eq_of_lt (Nat.lt_of_le_of_lt (hcode c hc).2 (by decide))
      rw [Function.comp_apply, hbyte, Char.ofNat_toNat, id]
    rw [asciiText, hchars, String.ofList_toList]
  · intro hbreak
    obtain ⟨c, hc, hten⟩ := List.mem_map.mp hbreak
    obtain ⟨hlow, hhigh⟩ := hcode c hc
    have hmod : c.toNat % 256 = 10 := congrArg UInt8.toNat hten
    omega

theorem readsAddresses_readLines : ReadsAddresses readLines := by
  intro addrs
  have hbreak : asciiBytes "\n" = [10] := rfl
  have hlines : linesOf 10 ((hostLines addrs).flatMap (· ++ [10])) = hostLines addrs :=
    linesOf_flatMap (List.forall_mem_map.mpr fun addr _ => (asciiText_inetNtop addr).2)
  rw [hbreak, readLines, hlines, hostLines, List.map_map]
  exact List.map_congr_left fun addr _ => (asciiText_inetNtop addr).1

/-- A machine with one address, which the fabric `ib0` has or has not. -/
def jobMachine (addr : InAddr) (onFabric : Bool) : JobMachine where
  getinfo := some [⟨some addr, some (asciiBytes (if onFabric then "ib0" else "eth0"))⟩]
  localIp := ⟨List.replicate maxIpLen 0, List.length_replicate⟩
  fab := oneInterface addr

/-- The second of them is not on the fabric. -/
def threeMachines : List JobMachine :=
  [jobMachine ⟨10, 0, 0, 1⟩ true, jobMachine ⟨10, 0, 0, 2⟩ false, jobMachine ⟨10, 0, 0, 3⟩ true]

theorem findsOwn_threeMachines : FindsOwn (asciiBytes "ib0") threeMachines := by
  have hown : ∀ r < 3, ∀ q < 3, ∀ machine ∈ threeMachines[r]?, ∀ other ∈ threeMachines[q]?,
      ∀ addr ∈ machine.found (asciiBytes "ib0"),
        (other.fab.IsLocal (inetNtop addr) ↔ q = r) := by decide
  intro r machine addr hr haddr q other hq
  exact hown r (List.getElem?_eq_some_iff.mp hr).1 q (List.getElem?_eq_some_iff.mp hq).1 machine hr
    other hq addr haddr

theorem serverInit_of_gathered_threeMachines :
    ∃ file, chiNetFind (fun slots => (slots.map Subtype.val).flatten)
        (threeMachines.map (JobMachine.rank (asciiBytes "ib0"))) = .ok file ∧
      ∀ (r : ℕ) (machine : JobMachine), threeMachines[r]? = some machine →
        ((machine.found (asciiBytes "ib0")).isSome →
          ∃ ctx, freshContext.serverInit addressesOnly machine.fab
              ((configOf [] "ofi+sockets").over (readLines file)) = .ok ctx ∧
            ctx.nodeId.toNat = ((threeMachines.take r).filterMap
              (JobMachine.found (asciiBytes "ib0"))).length + 1) ∧
        (machine.found (asciiBytes "ib0") = none →
          ∀ ctx, freshContext.serverInit addressesOnly machine.fab
            ((configOf [] "ofi+sockets").over (readLines file)) ≠ .ok ctx) :=
  serverInit_of_gathered gathersInOrder_flatten readsAddresses_readLines (by decide)
    findsOwn_threeMachines addressesOnly rfl rfl

end ChiNettest
