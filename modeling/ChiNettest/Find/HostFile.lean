import ChiNettest.Machinery.CString
import ChiNettest.Rpc.Literal

/-!
# Find/HostFile — the host file `chi_net_find` gathers

Every rank looks its address up (`findIpFromFabric`), copies it into a slot of 16 bytes (`packIp`)
and sends the slot to rank 0, which reads a C string off every sixteenth byte of what it gathered
and writes the non-empty ones down (`saveIps`).

The longest address `inet_ntop` prints leaves one byte of its slot to the terminator
(`findIpFromFabric_fits`), so a slot holds its string and nothing of it reaches the next one
(`packIp_eq`): the file is the addresses found, in rank order (`chiNetFind_eq`).
-/

namespace ChiNettest

/-- The characters of a text of the ASCII range. -/
def asciiBytes (text : String) : List UInt8 := text.toList.map fun c => UInt8.ofNat c.toNat

/-! ## One rank -/

/-- What `find_ip_from_fabric` reads of an `fi_info`. -/
structure FabricInfo where
  srcAddr : Option InAddr
  /-- `fabric_attr->name` -/
  fabricName : Option (List UInt8)
  deriving DecidableEq, Repr

/-- The loop of `find_ip_from_fabric` over the list `fi_getinfo` returned. -/
def firstOnFabric (fabric : List UInt8) : List FabricInfo → List UInt8
  | [] => []
  | cur :: info =>
    match cur.srcAddr, cur.fabricName with
    | some addr, some testFabric =>
      if testFabric = fabric then asciiBytes (inetNtop addr) else firstOnFabric fabric info
    | _, _ => firstOnFabric fabric info

/-- `find_ip_from_fabric`: `getinfo` is the list `fi_getinfo` returns, `none` where it fails.  The
address of the first entry on the fabric, or the empty string. -/
def findIpFromFabric (getinfo : Option (List FabricInfo)) (fabric : List UInt8) : List UInt8 :=
  match getinfo with
  | none => []
  | some info => firstOnFabric fabric info

/-- `MAX_IP_LEN` -/
def maxIpLen : ℕ := 16

/-- The contents of a `char[MAX_IP_LEN]`. -/
abbrev Slot : Type := { bytes : List UInt8 // bytes.length = maxIpLen }

/-- The slot a rank sends: `ip` copied over what `local_ip` held, its last byte a terminator. -/
def packIp (localIp : Slot) (ip : List UInt8) : Slot :=
  ⟨(strncpy 0 localIp.1 ip (maxIpLen - 1)).set (maxIpLen - 1) 0, by
    rw [List.length_set, length_strncpy (by rw [localIp.2]; decide), localIp.2]⟩

/-! ## Rank 0 -/

/-- The product of two `int`s. -/
def mulInt (i j : ℤ) : Except Exn ℤ :=
  if -2 ^ 31 ≤ i * j ∧ i * j < 2 ^ 31 then .ok (i * j) else .error .signedOverflow

/-- The line of a rank: none where it found no address. -/
def lineOf (ip : List UInt8) : List UInt8 := if ip = [] then [] else ip ++ asciiBytes "\n"

/-- One iteration of the loop of rank 0: a string is read off the slot of rank `i`. -/
def saveIp (allIps : List UInt8) (i : ℤ) : Except Exn (List UInt8) := do
  let offset ← mulInt i maxIpLen
  match cString 0 (allIps.drop offset.toNat) with
  | none => .error .outOfRange
  | some currIp => .ok (lineOf currIp)

/-- The loop of rank 0, with `left` iterations to go. -/
def saveFrom (allIps : List UInt8) : (left : ℕ) → (i : ℤ) → Except Exn (List UInt8)
  | 0, _ => return []
  | left + 1, i => do
    let line ← saveIp allIps i
    let rest ← saveFrom allIps left (← incInt i)
    return line ++ rest

/-- The file rank 0 writes of the slots it gathered from `size` ranks. -/
def saveIps (allIps : List UInt8) (size : ℕ) : Except Exn (List UInt8) :=
  saveFrom allIps size 0

/-- A rank: what its `local_ip` held, and what `find_ip_from_fabric` returns. -/
structure FindRank where
  localIp : Slot
  ip : List UInt8

/-- `main`: the file written by the ranks of one run, where `mpiGather` is the contents of `all_ips`
after the `MPI_Gather` of the slots. -/
def chiNetFind (mpiGather : List Slot → List UInt8) (ranks : List FindRank) :
    Except Exn (List UInt8) := do
  -- `new char[size * MAX_IP_LEN]`
  let _ ← mulInt ranks.length maxIpLen
  saveIps (mpiGather (ranks.map fun rank => packIp rank.localIp rank.ip)) ranks.length

/-- **`MPI_Gather` puts the slot of rank `r` at offset `16 * r`.** -/
def GathersInOrder (mpiGather : List Slot → List UInt8) : Prop :=
  ∀ (slots : List Slot) (r : ℕ) (slot : Slot), slots[r]? = some slot →
    ((mpiGather slots).drop (maxIpLen * r)).take maxIpLen = slot.1

/-! ## What fits a slot -/

/-- **A text that fits a slot**: the terminator is no character of it, and has room behind it. -/
structure FitsSlot (ip : List UInt8) : Prop where
  noNul : 0 ∉ ip
  short : ip.length ≤ 15

/-- The characters of a printed address are digits and dots. -/
theorem mem_inetNtop {addr : InAddr} {c : Char} (h : c ∈ (inetNtop addr).toList) :
    c = '.' ∨ c.isDigit = true := by
  by_cases hdot : c = '.'
  · exact .inl hdot
  · obtain ⟨part, hpart, hc⟩ := (exists_mem_splitOn '.' c _).mpr ⟨h, hdot⟩
    have hlooks : looksLikeIp (inetNtop addr) = true := IsDottedQuad.looksLikeIp ⟨addr, rfl⟩
    exact .inr ((looksLikeIp_iff.mp hlooks).2 part hpart c hc)

/-- A printed octet has three digits at most. -/
theorem length_toDigits_octet {n : ℕ} (h : n ≤ 255) : (Nat.toDigits 10 n).length ≤ 3 :=
  (Nat.length_toDigits_le_iff (by decide) (by decide)).mpr (by omega)

/-- **A printed address fits a slot.** -/
theorem inetNtop_fits (addr : InAddr) : FitsSlot (asciiBytes (inetNtop addr)) where
  noNul hnul := by
    obtain ⟨c, hc, hzero⟩ := List.mem_map.mp hnul
    have hcode : c.toNat = 46 ∨ (48 ≤ c.toNat ∧ c.toNat ≤ 57) :=
      (mem_inetNtop hc).imp (congrArg Char.toNat) Char.isDigit_iff_toNat.mp
    have hmod : c.toNat % 256 = 0 := congrArg UInt8.toNat hzero
    omega
  short := by
    have hoctet : ∀ n ∈ addr.octets, (Nat.toDigits 10 n).length ≤ 3 := fun n hn =>
      length_toDigits_octet (addr.octets_le n hn)
    rw [asciiBytes, List.length_map, addr.toList_inetNtop]
    simp only [InAddr.octets, List.forall_mem_cons] at hoctet
    obtain ⟨ha, hb, hc, hd, -⟩ := hoctet
    simp only [InAddr.octets, List.map_cons, List.map_nil, List.intercalate_cons_cons,
      List.intercalate_singleton, List.length_append, List.length_cons, List.length_nil]
    omega

/-- **`find_ip_from_fabric` returns the empty string or a printed address**, so its result fits. -/
theorem findIpFromFabric_fits (getinfo : Option (List FabricInfo)) (fabric : List UInt8) :
    FitsSlot (findIpFromFabric getinfo fabric) := by
  have hempty : FitsSlot [] := ⟨List.not_mem_nil, by decide⟩
  have hfirst : ∀ info, FitsSlot (firstOnFabric fabric info) := by
    intro info
    induction info with
    | nil => exact hempty
    | cons cur info ih =>
      rw [firstOnFabric]
      split
      · split
        · exact inetNtop_fits _
        · exact ih
      · exact ih
  cases getinfo with
  | none => exact hempty
  | some info => exact hfirst info

/-! ## Packing and unpacking -/

/-- **A slot is its text and terminators**, whatever `local_ip` held. -/
theorem packIp_eq {ip : List UInt8} (h : FitsSlot ip) (localIp : Slot) :
    (packIp localIp ip).1 = ip ++ 0 :: List.replicate (15 - ip.length) 0 := by
  obtain ⟨last, hlast⟩ : ∃ last, localIp.1.drop 15 = [last] := by
    refine List.length_eq_one_iff.mp ?_
    rw [List.length_drop, localIp.2]
    rfl
  have hfull : (ip ++ List.replicate (15 - ip.length) 0).length = 15 := by
    rw [List.length_append, List.length_replicate]
    exact Nat.add_sub_cancel' h.short
  change (strncpy 0 localIp.1 ip 15).set 15 0 = _
  rw [strncpy_of_le h.noNul h.short, hlast, List.set_append_right _ _ (Nat.le_of_eq hfull), hfull,
    Nat.sub_self, List.set_cons_zero, List.append_assoc, ← List.replicate_succ',
    List.replicate_succ]

theorem mulInt_of_lt {r : ℕ} (h : r * maxIpLen < 2 ^ 31) :
    mulInt r maxIpLen = .ok ((maxIpLen * r : ℕ) : ℤ) := by
  have hcast : (r : ℤ) * maxIpLen = ((maxIpLen * r : ℕ) : ℤ) := by
    rw [Nat.mul_comm]
    exact (Int.natCast_mul r maxIpLen).symm
  rw [mulInt, hcast, if_pos ⟨by omega, by omega⟩]

/-- **Rank 0 reads back what the rank packed.** -/
theorem saveIp_eq {allIps ip : List UInt8} (h : FitsSlot ip) {localIp : Slot} {r : ℕ}
    (hr : r * maxIpLen < 2 ^ 31)
    (hslot : (allIps.drop (maxIpLen * r)).take maxIpLen = (packIp localIp ip).1) :
    saveIp allIps r = .ok (lineOf ip) := by
  have hread : cString 0 (allIps.drop (maxIpLen * r)) = some ip := by
    rw [← List.take_append_drop maxIpLen (allIps.drop (maxIpLen * r)), hslot, packIp_eq h,
      List.append_assoc, List.cons_append]
    exact cString_of_terminated h.noNul _
  rw [saveIp, mulInt_of_lt hr, except_ok_bind, Int.toNat_natCast, hread]

/-- **The loop writes line after line.** -/
theorem saveFrom_eq {allIps : List UInt8} : ∀ {ips : List (List UInt8)} {r : ℕ},
    r + ips.length < 2 ^ 31 →
      (∀ (k : ℕ) (ip : List UInt8), ips[k]? = some ip →
        saveIp allIps (r + k : ℕ) = .ok (lineOf ip)) →
      saveFrom allIps ips.length r = .ok (ips.flatMap lineOf)
  | [], _, _, _ => rfl
  | ip :: ips, r, hlt, h => by
      have hnext : incInt r = .ok ((r + 1 : ℕ) : ℤ) := by
        rw [incInt, if_neg (by rw [List.length_cons] at hlt; omega)]
        rfl
      have hrest : saveFrom allIps ips.length (r + 1 : ℕ) = .ok (ips.flatMap lineOf) := by
        refine saveFrom_eq (by rw [List.length_cons] at hlt; omega) fun k ip' hk => ?_
        rw [Nat.add_right_comm]
        exact h (k + 1) ip' (by rw [List.getElem?_cons_succ, hk])
      have hfirst : saveIp allIps r = .ok (lineOf ip) := h 0 ip rfl
      rw [List.length_cons, saveFrom, hfirst, except_ok_bind, hnext, except_ok_bind, hrest,
        except_ok_bind, List.flatMap_cons]
      rfl

/-! ## The file -/

/-- Lines are written for the non-empty texts. -/
theorem flatMap_lineOf (ips : List (List UInt8)) :
    ips.flatMap lineOf = (ips.filter (· ≠ [])).flatMap (· ++ asciiBytes "\n") := by
  induction ips with
  | nil => rfl
  | cons ip ips ih =>
    rw [List.flatMap_cons, ih, List.filter_cons, lineOf]
    by_cases hip : ip = []
    · simp [hip]
    · simp [hip, List.append_assoc]

/-- **Rank 0 reads the line of every rank off what it gathered.** -/
theorem saveIp_gathered {mpiGather : List Slot → List UInt8} (hgather : GathersInOrder mpiGather)
    {ranks : List FindRank} (hsize : ranks.length * maxIpLen < 2 ^ 31)
    (hfits : ∀ rank ∈ ranks, FitsSlot rank.ip) {k : ℕ} {ip : List UInt8}
    (hk : (ranks.map FindRank.ip)[k]? = some ip) :
    saveIp (mpiGather (ranks.map fun rank => packIp rank.localIp rank.ip)) (k : ℕ)
      = .ok (lineOf ip) := by
  obtain ⟨rank, hrank, rfl⟩ : ∃ rank, ranks[k]? = some rank ∧ rank.ip = ip := by
    simpa using hk
  have hslot : (ranks.map fun rank => packIp rank.localIp rank.ip)[k]?
      = some (packIp rank.localIp rank.ip) := by
    rw [List.getElem?_map, hrank]
    rfl
  have hlt : k < ranks.length := (List.getElem?_eq_some_iff.mp hrank).1
  have hoffset : k * maxIpLen < 2 ^ 31 :=
    Nat.lt_of_le_of_lt (Nat.mul_le_mul_right maxIpLen (Nat.le_of_lt hlt)) hsize
  exact saveIp_eq (hfits rank (List.mem_of_getElem? hrank)) hoffset (hgather _ k _ hslot)

/-- **The gathered host file is the lines of the ranks**, in rank order. -/
theorem chiNetFind_lines {mpiGather : List Slot → List UInt8} (hgather : GathersInOrder mpiGather)
    {ranks : List FindRank} (hsize : ranks.length * maxIpLen < 2 ^ 31)
    (hfits : ∀ rank ∈ ranks, FitsSlot rank.ip) :
    chiNetFind mpiGather ranks = .ok ((ranks.map FindRank.ip).flatMap lineOf) := by
  have hbound : ranks.length < 2 ^ 31 :=
    Nat.lt_of_le_of_lt (Nat.le_mul_of_pos_right _ (by decide)) hsize
  have hsave : ∀ (k : ℕ) (ip : List UInt8), (ranks.map FindRank.ip)[k]? = some ip →
      saveIp (mpiGather (ranks.map fun rank => packIp rank.localIp rank.ip)) ((0 + k : ℕ) : ℤ)
        = .ok (lineOf ip) := by
    intro k ip hk
    rw [Nat.zero_add]
    exact saveIp_gathered hgather hsize hfits hk
  have hfile := saveFrom_eq (by rw [List.length_map]; omega) hsave
  rw [List.length_map] at hfile
  rw [chiNetFind, mulInt_of_lt hsize, except_ok_bind]
  exact hfile

/-- **The gathered host file is the addresses found, in rank order, one per line**: of every rank
that found one, the address it found, whatever its `local_ip` held before. -/
theorem chiNetFind_eq (mpiGather : List Slot → List UInt8) (hgather : GathersInOrder mpiGather)
    (ranks : List FindRank) (hsize : ranks.length * maxIpLen < 2 ^ 31)
    (hfits : ∀ rank ∈ ranks, FitsSlot rank.ip) :
    chiNetFind mpiGather ranks = .ok
      (((ranks.map FindRank.ip).filter (· ≠ [])).flatMap (· ++ asciiBytes "\n")) := by
  rw [chiNetFind_lines hgather hsize hfits, flatMap_lineOf]

/-- Slots laid one after the other lie in order. -/
theorem gathersInOrder_flatten :
    GathersInOrder fun slots => (slots.map Subtype.val).flatten := by
  intro slots r slot hslot
  induction slots generalizing r with
  | nil => cases hslot
  | cons first slots ih =>
    change ((first.1 ++ (slots.map Subtype.val).flatten).drop _).take _ = _
    cases r with
    | zero =>
      obtain rfl : first = slot := Option.some.inj hslot
      exact List.take_left' first.2
    | succ r =>
      have hskip : maxIpLen * (r + 1) = first.1.length + maxIpLen * r := by
        rw [first.2, Nat.mul_succ, Nat.add_comm]
      rw [hskip, List.drop_length_add_append]
      exact ih r hslot

/-- A rank that looks for `fabric` in what `fi_getinfo` returns, its `local_ip` full of `x`s. -/
def rankOn (fabric : String) (getinfo : Option (List FabricInfo)) : FindRank :=
  ⟨⟨List.replicate maxIpLen 120, List.length_replicate⟩,
    findIpFromFabric getinfo (asciiBytes fabric)⟩

/-- A longest address, a rank on which `fi_getinfo` fails, and an address behind that of another
fabric. -/
def threeRanks : List FindRank :=
  [some [⟨some ⟨255, 255, 255, 255⟩, some (asciiBytes "ib0")⟩], none,
    some [⟨some ⟨127, 0, 0, 1⟩, some (asciiBytes "lo")⟩,
      ⟨some ⟨10, 0, 0, 1⟩, some (asciiBytes "ib0")⟩]].map (rankOn "ib0")

theorem chiNetFind_eq_three :
    chiNetFind (fun slots => (slots.map Subtype.val).flatten) threeRanks
      = .ok (((threeRanks.map FindRank.ip).filter (· ≠ [])).flatMap (· ++ asciiBytes "\n")) :=
  chiNetFind_eq _ gathersInOrder_flatten threeRanks (by decide)
    (List.forall_mem_map.mpr fun getinfo _ => findIpFromFabric_fits getinfo (asciiBytes "ib0"))

end ChiNettest
