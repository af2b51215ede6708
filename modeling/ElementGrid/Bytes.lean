/-!
# Byte strings

What processes send each other is a list of bytes. Numbers are written with the low byte first, so
that the bytes do not depend on the machine.

## Main definitions

* `Bytes` — a list of bytes
* `Bytes.ofNat`, `Bytes.toNat` — a number in a given number of bytes, and back
* `Bytes.chunks` — a byte string cut into pieces of equal length

## Main results

* `Bytes.toNat_ofNat` — a number that fits comes back
* `Bytes.ofNat_toNat` — bytes are those of the number that they stand for
* `Bytes.flatten_chunks` — the pieces together are the byte string
-/

namespace ElementGrid

/-- A list of bytes. -/
abbrev Bytes := List UInt8

namespace Bytes

/-- The low `width` bytes of `n`, lowest first. -/
def ofNat : Nat → Nat → Bytes
  | 0, _ => []
  | width + 1, n => UInt8.ofNat n :: ofNat width (n / 256)

/-- The number with the given bytes, lowest first. -/
def toNat : Bytes → Nat
  | [] => 0
  | b :: bs => b.toNat + 256 * toNat bs

/-- The first `count` pieces of `width` bytes. -/
def chunks (width : Nat) : Nat → Bytes → List Bytes
  | 0, _ => []
  | count + 1, bs => bs.take width :: chunks width count (bs.drop width)

@[simp]
theorem length_ofNat (width n : Nat) : (ofNat width n).length = width := by
  induction width generalizing n with
  | zero => rfl
  | succ width ih => simp [ofNat, ih]

theorem toNat_ofNat {width n : Nat} (h : n < Nat.pow 256 width) : toNat (ofNat width n) = n := by
  induction width generalizing n with
  | zero =>
    have h0 : n < 1 := h
    simp only [ofNat, toNat]
    omega
  | succ width ih =>
    have hdiv : n / 256 < Nat.pow 256 width := by
      have hmul : n < Nat.pow 256 width * 256 := h
      omega
    simp only [ofNat, toNat, ih hdiv, UInt8.toNat_ofNat']
    omega

theorem toNat_lt (bs : Bytes) : toNat bs < Nat.pow 256 bs.length := by
  induction bs with
  | nil => exact Nat.one_pos
  | cons b bs ih =>
    have hb := b.toNat_lt
    show b.toNat + 256 * toNat bs < Nat.pow 256 bs.length * 256
    omega

theorem ofNat_toNat (bs : Bytes) : ofNat bs.length (toNat bs) = bs := by
  induction bs with
  | nil => rfl
  | cons b bs ih =>
    have hb := b.toNat_lt
    have hlow : UInt8.ofNat (b.toNat + 256 * toNat bs) = b := by
      apply UInt8.toNat.inj
      rw [UInt8.toNat_ofNat']
      omega
    have hrest : (b.toNat + 256 * toNat bs) / 256 = toNat bs := by omega
    simp only [List.length_cons, toNat, ofNat, hlow, hrest, ih]

@[simp]
theorem length_chunks (width count : Nat) (bs : Bytes) : (chunks width count bs).length = count := by
  induction count generalizing bs with
  | zero => rfl
  | succ count ih => simp [chunks, ih]

theorem getElem?_chunks {width count i : Nat} (bs : Bytes) (h : i < count) :
    (chunks width count bs)[i]? = some ((bs.drop (i * width)).take width) := by
  induction count generalizing i bs with
  | zero => omega
  | succ count ih =>
    cases i with
    | zero => simp [chunks]
    | succ i =>
      have hplace : width + i * width = (i + 1) * width := by rw [Nat.succ_mul, Nat.add_comm]
      rw [chunks, List.getElem?_cons_succ, ih (bs.drop width) (by omega), List.drop_drop, hplace]

theorem length_of_mem_chunks {width count : Nat} {bs piece : Bytes} (h : bs.length = count * width)
    (hpiece : piece ∈ chunks width count bs) : piece.length = width := by
  obtain ⟨i, hi⟩ := List.getElem?_of_mem hpiece
  have hlt : i < count := by
    rw [← length_chunks width count bs]
    exact (List.getElem?_eq_some_iff.1 hi).1
  rw [getElem?_chunks bs hlt] at hi
  have hmul : (i + 1) * width ≤ count * width := Nat.mul_le_mul_right width hlt
  rw [Nat.succ_mul] at hmul
  rw [← Option.some.inj hi, List.length_take, List.length_drop]
  omega

theorem flatten_chunks {width count : Nat} {bs : Bytes} (h : bs.length = count * width) :
    (chunks width count bs).flatten = bs := by
  induction count generalizing bs with
  | zero =>
    have : bs = [] := by simpa using h
    simp [chunks, this]
  | succ count ih =>
    have : (bs.drop width).length = count * width := by
      rw [List.length_drop, h, Nat.succ_mul]
      omega
    simp [chunks, ih this]

end Bytes

end ElementGrid
