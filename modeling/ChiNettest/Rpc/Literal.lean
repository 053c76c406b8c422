import ChiNettest.Machinery.Text
import ChiNettest.Rpc.Identity

/-!
# Rpc/Literal — the address literals `_GetIpAddress` hands back

`_GetIpAddress` returns a host name of three dots and otherwise digits as it is.  `inet_ntop` prints
fewer strings than that: each of the four parts between the dots is an octet, a decimal numeral up
to 255 (`isDottedQuad_iff`).  On a host name the code's test accepts, the two agree exactly where
all four parts are octets; elsewhere the name is handed back, is no address, and the comparison with
the machine's own address fails (`literalExact_iff`).
-/

namespace ChiNettest

/-! ## Dotted quads -/

/-- What stands between the dots of a host name. -/
def dotParts (hostName : String) : List (List Char) := hostName.toList.splitOn '.'

/-- **A number 0..255 without superfluous leading zeros.** -/
def IsOctet (part : List Char) : Prop := Numeral part ∧ decimalValue part ≤ 255

instance (part : List Char) : Decidable (IsOctet part) := inferInstanceAs (Decidable (_ ∧ _))

/-- **A canonical dotted-quad IPv4 address**: a string `inet_ntop` prints. -/
def IsDottedQuad (hostName : String) : Prop := ∃ addr, hostName = inetNtop addr

namespace InAddr

/-- The four numbers of an address. -/
def octets (addr : InAddr) : List ℕ := [addr.a.toNat, addr.b.toNat, addr.c.toNat, addr.d.toNat]

theorem octets_le (addr : InAddr) : ∀ n ∈ addr.octets, n ≤ 255 := by
  intro n hn
  have hbyte : ∀ b : UInt8, b.toNat ≤ 255 := fun b => Nat.le_of_lt_succ b.toNat_lt
  simp only [octets, List.mem_cons, List.not_mem_nil, or_false] at hn
  rcases hn with rfl | rfl | rfl | rfl <;> exact hbyte _

/-- Four numbers up to 255 are the numbers of an address. -/
theorem exists_octets : ∀ {ns : List ℕ}, ns.length = 4 → (∀ n ∈ ns, n ≤ 255) →
    ∃ addr : InAddr, addr.octets = ns
  | [a, b, c, d], _, h => by
      have hbyte : ∀ n ∈ [a, b, c, d], (UInt8.ofNat n).toNat = n := fun n hn =>
        UInt8.toNat_ofNat_of_lt' (Nat.lt_succ_of_le (h n hn))
      refine ⟨⟨.ofNat a, .ofNat b, .ofNat c, .ofNat d⟩, ?_⟩
      simp only [octets, hbyte, List.mem_cons, true_or, or_true]

/-- An address is printed number by number. -/
theorem toList_inetNtop (addr : InAddr) :
    (inetNtop addr).toList = ['.'].intercalate (addr.octets.map (Nat.toDigits 10)) := by
  simp [inetNtop, octets]

/-- The parts of a printed address are its numbers. -/
theorem dotParts_inetNtop (addr : InAddr) :
    dotParts (inetNtop addr) = addr.octets.map (Nat.toDigits 10) := by
  rw [dotParts, toList_inetNtop]
  refine List.splitOn_intercalate '.' (fun part hpart hdot => ?_) (by simp [octets])
  obtain ⟨n, -, rfl⟩ := List.mem_map.mp hpart
  exact absurd ((numeral_toDigits n).digits '.' hdot) (by decide)

end InAddr

/-- A host name is its parts, joined by dots. -/
theorem hostName_eq_iff {s t : String} : s = t ↔ dotParts s = dotParts t := by
  have hjoin : ∀ u, ['.'].intercalate (dotParts u) = u.toList := fun u =>
    List.intercalate_splitOn '.'
  refine ⟨fun h => h ▸ rfl, fun h => String.toList_inj.mp ?_⟩
  rw [← hjoin s, ← hjoin t, h]

/-- **A dotted quad is four octets.** -/
theorem isDottedQuad_iff {hostName : String} : IsDottedQuad hostName ↔
    (dotParts hostName).length = 4 ∧ ∀ part ∈ dotParts hostName, IsOctet part := by
  constructor
  · rintro ⟨addr, rfl⟩
    rw [addr.dotParts_inetNtop]
    refine ⟨by simp [InAddr.octets], fun part hpart => ?_⟩
    obtain ⟨n, hn, rfl⟩ := List.mem_map.mp hpart
    exact ⟨numeral_toDigits n, (decimalValue_toDigits n).symm ▸ addr.octets_le n hn⟩
  · rintro ⟨hfour, hoctets⟩
    have hfour' : ((dotParts hostName).map decimalValue).length = 4 := by
      rw [List.length_map, hfour]
    have hle : ∀ n ∈ (dotParts hostName).map decimalValue, n ≤ 255 := by
      intro n hn
      obtain ⟨part, hpart, rfl⟩ := List.mem_map.mp hn
      exact (hoctets part hpart).2
    obtain ⟨addr, haddr⟩ := InAddr.exists_octets hfour' hle
    refine ⟨addr, hostName_eq_iff.mpr ?_⟩
    rw [addr.dotParts_inetNtop, haddr, List.map_map]
    have hwritten : ∀ part ∈ dotParts hostName, (Nat.toDigits 10 ∘ decimalValue) part = part :=
      fun part hpart => (hoctets part hpart).1.toDigits_value
    rw [List.map_congr_left hwritten, List.map_id']

/-! ## The test of the code -/

/-- **The code's test is four words of digits.** -/
theorem looksLikeIp_iff {hostName : String} : looksLikeIp hostName = true ↔
    (dotParts hostName).length = 4 ∧ ∀ part ∈ dotParts hostName, ∀ c ∈ part, c.isDigit = true := by
  have hmem := fun c => exists_mem_splitOn '.' c hostName.toList
  rw [looksLikeIp, Bool.and_eq_true, beq_iff_eq, List.all_eq_true, dotParts, length_splitOn,
    Nat.succ_inj]
  refine and_congr_right fun _ => ⟨fun h part hpart c hc => ?_, fun h c hc => ?_⟩
  · obtain ⟨hin, hdot⟩ := (hmem c).mp ⟨part, hpart, hc⟩
    simpa [hdot] using h c hin
  · by_cases hdot : c = '.'
    · simp [hdot]
    · obtain ⟨part, hpart, hin⟩ := (hmem c).mpr ⟨hc, hdot⟩
      simp [h part hpart c hin]

/-- **`_GetIpAddress` returns the host name itself**, whatever the resolver would answer. -/
def TakesShortcut (hostName : String) : Prop := ∀ res, getIpAddress res hostName = .ok hostName

/-- It does where its test succeeds. -/
theorem takesShortcut_iff {hostName : String} :
    TakesShortcut hostName ↔ looksLikeIp hostName = true := by
  constructor
  · intro h
    by_contra hno
    have hfailed := h ⟨fun _ => .failed, fun _ => ""⟩
    rw [getIpAddress, if_neg hno] at hfailed
    cases hfailed
  · intro h res
    rw [getIpAddress, if_pos h]

/-- A dotted quad passes the test. -/
theorem IsDottedQuad.looksLikeIp {hostName : String} (h : IsDottedQuad hostName) :
    looksLikeIp hostName = true := by
  obtain ⟨hfour, hoctets⟩ := isDottedQuad_iff.mp h
  exact looksLikeIp_iff.mpr ⟨hfour, fun part hpart => (hoctets part hpart).1.digits⟩

/-! ## The machine's own address -/

/-- The parts of the host name, read as numbers, are those of the address. -/
def Denotes (hostName : String) (addr : InAddr) : Prop :=
  (dotParts hostName).map decimalValue = addr.octets

/-- The machine has an interface with the address. -/
def Fabric.Has (fab : Fabric) (addr : InAddr) : Prop :=
  fab.fiAllocinfo = true ∧ ∃ info, fab.fiGetinfo = .ok info ∧ some addr ∈ info

theorem InAddr.octets_injective {addr addr' : InAddr} (h : addr.octets = addr'.octets) :
    addr = addr' := by
  obtain ⟨a, b, c, d⟩ := addr
  obtain ⟨a', b', c', d'⟩ := addr'
  simpa [octets, UInt8.toNat_inj] using h

/-- A printed address denotes that address alone. -/
theorem denotes_inetNtop_iff {addr addr' : InAddr} :
    Denotes (inetNtop addr) addr' ↔ addr = addr' := by
  have hread : (decimalValue ∘ Nat.toDigits 10) = id := funext decimalValue_toDigits
  rw [Denotes, addr.dotParts_inetNtop, List.map_map, hread, List.map_id]
  exact ⟨InAddr.octets_injective, fun h => h ▸ rfl⟩

/-- `_IsAddressLocal` recognises an address of the machine as `inet_ntop` prints it. -/
theorem Fabric.Has.isLocal {fab : Fabric} {addr : InAddr} (h : fab.Has addr) :
    fab.IsLocal (inetNtop addr) := by
  obtain ⟨halloc, info, hinfo, hmem⟩ := h
  have hany : (info.any fun cur => cur.any fun sin => inetNtop addr == inetNtop sin) = true :=
    List.any_eq_true.mpr ⟨some addr, hmem, by simp⟩
  rw [Fabric.IsLocal, isAddressLocal, if_pos halloc, hinfo]
  exact congrArg Except.ok hany

/-! ## The shortcut -/

/-- **The shortcut is exact on a host name.** -/
structure LiteralExact (hostName : String) : Prop where
  /-- it is taken for IPv4 addresses only, and for each of them -/
  accepts : TakesShortcut hostName ↔ IsDottedQuad hostName
  /-- and taken for an address of the machine, it hands back what `_IsAddressLocal` compares with -/
  recognised : TakesShortcut hostName → ∀ addr, Denotes hostName addr → ∀ fab : Fabric,
    fab.Has addr → fab.IsLocal hostName

/-- **The shortcut is exact where four words of digits are four octets.** -/
theorem literalExact_iff (hostName : String) : LiteralExact hostName ↔
    (looksLikeIp hostName = true → ∀ part ∈ dotParts hostName, IsOctet part) := by
  constructor
  · intro h hlooks
    exact (isDottedQuad_iff.mp (h.accepts.mp (takesShortcut_iff.mpr hlooks))).2
  · intro h
    have haccepts : TakesShortcut hostName ↔ IsDottedQuad hostName := by
      rw [takesShortcut_iff]
      refine ⟨fun hlooks => ?_, IsDottedQuad.looksLikeIp⟩
      exact isDottedQuad_iff.mpr ⟨(looksLikeIp_iff.mp hlooks).1, h hlooks⟩
    refine ⟨haccepts, fun htaken addr hdenotes fab hhas => ?_⟩
    obtain ⟨addr', rfl⟩ := haccepts.mp htaken
    obtain rfl : addr' = addr := denotes_inetNtop_iff.mp hdenotes
    exact hhas.isLocal

/-- **`10.0.0.01` is handed back, is no address `inet_ntop` prints, and the machine at `10.0.0.1`
does not recognise it.** -/
theorem literalExact_fails_leading_zero :
    TakesShortcut "10.0.0.01" ∧ ¬ IsDottedQuad "10.0.0.01" ∧
      Denotes "10.0.0.01" ⟨10, 0, 0, 1⟩ ∧
      ¬ (oneInterface ⟨10, 0, 0, 1⟩).IsLocal "10.0.0.01" ∧
      ¬ LiteralExact "10.0.0.01" := by
  have htaken : TakesShortcut "10.0.0.01" := takesShortcut_iff.mpr (by decide)
  have hquad : ¬ IsDottedQuad "10.0.0.01" := by
    intro h
    have hpart : ['0', '1'] ∈ dotParts "10.0.0.01" := by decide
    have hlead := ((isDottedQuad_iff.mp h).2 ['0', '1'] hpart).1.lead rfl
    exact absurd hlead (by decide)
  exact ⟨htaken, hquad, by unfold Denotes; decide, by decide, fun h => hquad (h.accepts.mp htaken)⟩

end ChiNettest
