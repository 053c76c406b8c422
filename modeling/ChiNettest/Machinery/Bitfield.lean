import ChiNettest.Machinery.Archive

/-!
# Machinery/Bitfield — the bit fields of `hshm`, a parameter

The repository keeps its flags in bit fields of `hshm`, which is not part of it.  What a module
reads of them it takes from an `Hshm` or an `HshmAny`; what a result relies on, it assumes:
flags are the bits of a word (`HshmAny.OnWords`).
-/

namespace ChiNettest

/-- `hshm`'s bit fields. -/
structure Hshm where
  /-- `BIT_OPT(u32, n)` -/
  bitOpt : ℕ → UInt32
  /-- the bits after `SetBits(mask)` -/
  setBits : (bits mask : UInt32) → UInt32
  /-- how an archive treats a bit field -/
  bitfield : Codec UInt32

/-- `hshm`'s bit fields and their test. -/
structure HshmAny extends Hshm where
  /-- `Any(mask)` -/
  any : (bits mask : UInt32) → Bool

/-- **Flags are the bits of a word.** -/
structure HshmAny.OnWords (lib : HshmAny) : Prop where
  bitOpt : ∀ n, lib.bitOpt n = 1 <<< UInt32.ofNat n
  setBits : ∀ bits mask, lib.setBits bits mask = bits ||| mask
  any : ∀ bits mask, lib.any bits mask = decide (bits &&& mask ≠ 0)

/-! ## Bit fields that are words -/

/-- Bit fields as a word of bits. -/
def wordBits : Hshm := ⟨fun n => 1 <<< UInt32.ofNat n, fun bits mask => bits ||| mask,
  littleEndian.u32⟩

/-- Bit fields that are words of bits, with their test. -/
def wordFlags : HshmAny := { wordBits with any := fun bits mask => decide (bits &&& mask ≠ 0) }

theorem wordFlags_onWords : wordFlags.OnWords := ⟨fun _ => rfl, fun _ _ => rfl, fun _ _ => rfl⟩

end ChiNettest
