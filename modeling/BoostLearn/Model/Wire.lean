import BoostLearn.Core.Memory

/-! # Two-byte header fields

Both servers copy a header field into a `short` of the little-endian host and swap its bytes.
The composition reads the two bytes as a signed big-endian number, and writing a field is the
same swap in front of a copy.
-/

namespace BoostLearn.Model.Wire

open CInt Memory

/-- `memcpy(&field, cells + position, 2)` into a `short`. -/
def loadShort (cells : Cells) (position : ℕ) : Except Fault ℤ :=
  match cells[position]?, cells[position + 1]? with
  | some (some low), some (some high) => .ok (toShort (low.toNat + 256 * high.toNat))
  | some _, some _ => .error .indeterminate
  | _, _ => .error .outOfBounds

/-- `socket_ops::network_to_host_short`, on the unsigned 16-bit argument. -/
def networkToHostShort (value : ℤ) : ℤ :=
  let unsigned := value % 65536
  unsigned % 256 * 256 + unsigned / 256

/-- `socket_ops::host_to_network_short`, the same swap. -/
def hostToNetworkShort (value : ℤ) : ℤ := networkToHostShort value

/-- `memcpy(cells + position, &field, 2)` from a `short`. -/
def storeShort (cells : Cells) (position : ℕ) (value : ℤ) : Except Fault Cells :=
  let unsigned := (value % 65536).toNat
  memcpy cells position [some (UInt8.ofNat unsigned), some (UInt8.ofNat (unsigned / 256))] 0 2

/-- The number a header field denotes on the wire. -/
def bigEndianShort (high low : UInt8) : ℤ := toShort (256 * high.toNat + low.toNat)

/-- The two bytes of a header field on the wire. -/
def bigEndianBytes (value : ℤ) : List UInt8 :=
  let unsigned := (value % 65536).toNat
  [UInt8.ofNat (unsigned / 256), UInt8.ofNat unsigned]

theorem bigEndianShort_range (high low : UInt8) :
    -32768 ≤ bigEndianShort high low ∧ bigEndianShort high low < 32768 := toShort_range _

/-- The two bytes of a small number denote it. -/
theorem bigEndianShort_ofNat {value : ℕ} (small : value < 32768) :
    bigEndianShort (UInt8.ofNat (value / 256)) (UInt8.ofNat value) = value := by
  simp only [bigEndianShort, UInt8.toNat_ofNat', toShort]
  omega

/-- The two bytes of a field denote what a `short` keeps of the value. -/
theorem bigEndianShort_bytes (value : ℤ) :
    ∃ high low, bigEndianBytes value = [high, low] ∧ bigEndianShort high low = toShort value := by
  refine ⟨_, _, rfl, ?_⟩
  simp only [bigEndianShort, UInt8.toNat_ofNat', toShort]
  omega

/-- Loading a field and swapping it reads the signed big-endian number. -/
theorem networkToHostShort_load (high low : UInt8) :
    toShort (networkToHostShort (toShort (high.toNat + 256 * low.toNat))) = bigEndianShort high low := by
  have highBound := high.toNat_lt
  have lowBound := low.toNat_lt
  have unsigned : toShort (high.toNat + 256 * low.toNat) % 65536 = high.toNat + 256 * low.toNat := by
    simp only [toShort]
    omega
  have swapped : networkToHostShort (toShort (high.toNat + 256 * low.toNat)) =
      256 * high.toNat + low.toNat := by
    simp only [networkToHostShort, unsigned]
    omega
  rw [swapped, bigEndianShort]

private theorem ofNat_add (high low : ℕ) : UInt8.ofNat (256 * high + low) = UInt8.ofNat low := by
  apply UInt8.toNat_inj.mp
  simp only [UInt8.toNat_ofNat']
  omega

/-- Storing a swapped field writes its bytes in network order. -/
theorem storeShort_hostToNetworkShort (cells : Cells) (position : ℕ) (value : ℤ) :
    storeShort cells position (toShort (hostToNetworkShort value)) =
      memcpy cells position ((bigEndianBytes value).map some) 0 2 := by
  obtain ⟨high, low, highBound, lowBound, same⟩ :
      ∃ high low : ℕ, high < 256 ∧ low < 256 ∧ value % 65536 = (256 * high + low : ℕ) :=
    ⟨(value % 65536 / 256).toNat, (value % 256).toNat, by omega, by omega, by omega⟩
  have quotient {high low : ℕ} (bound : low < 256) : (256 * high + low) / 256 = high := by omega
  have remainder : ((256 * high + low : ℕ) : ℤ) % 256 = low := by omega
  have division : ((256 * high + low : ℕ) : ℤ) / 256 = high := by omega
  have swapped : (toShort (hostToNetworkShort value) % 65536).toNat = 256 * low + high := by
    simp only [hostToNetworkShort, networkToHostShort, same, remainder, division, toShort]
    omega
  simp only [storeShort, swapped, ofNat_add, quotient highBound, quotient lowBound, bigEndianBytes,
    same, Int.toNat_natCast, List.map_cons, List.map_nil]

theorem storeShort_length {cells stored : Cells} {position : ℕ} {value : ℤ}
    (done : storeShort cells position value = .ok stored) : stored.length = cells.length :=
  memcpy_length done

theorem loadShort_of_bytes {cells : Cells} {position : ℕ} {first second : UInt8}
    (atFirst : cells[position]? = some (some first))
    (atSecond : cells[position + 1]? = some (some second)) :
    loadShort cells position = .ok (toShort (first.toNat + 256 * second.toNat)) := by
  simp only [loadShort, atFirst, atSecond]

end BoostLearn.Model.Wire
