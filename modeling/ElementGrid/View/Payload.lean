import ElementGrid.Bytes
import ElementGrid.Double.Basic
/-!
# Payloads

What a view tells of each element is a payload of fixed length: nothing at all, a word, a double, or
the coordinates of a point.

## Main definitions

* `Payload` — a type of values with a fixed-length byte form
* `LawfulPayload` — a payload of which every byte string of the right length is a byte form
* instances for `Unit`, `UInt64`, `Double` and `Vector Double n`
-/

namespace ElementGrid

/-- A type of values with a byte form of fixed length. -/
class Payload (P : Type) where
  /-- The length of the byte form. -/
  width : Nat
  /-- The byte form. -/
  encode : P → Bytes
  /-- The value of a byte form. -/
  decode : Bytes → P
  length_encode : ∀ p, (encode p).length = width
  decode_encode : ∀ p, decode (encode p) = p

namespace Payload

/-- The eight bytes of a word. -/
def encodeWord (w : UInt64) : Bytes := Bytes.ofNat 8 w.toNat

/-- The word of eight bytes. -/
def decodeWord (bs : Bytes) : UInt64 := .ofNat (Bytes.toNat bs)

@[simp]
theorem length_encodeWord (w : UInt64) : (encodeWord w).length = 8 := Bytes.length_ofNat 8 _

@[simp]
theorem decodeWord_encodeWord (w : UInt64) : decodeWord (encodeWord w) = w := by
  rw [decodeWord, encodeWord, Bytes.toNat_ofNat (by have := w.toNat_lt; omega)]
  exact UInt64.ofNat_toNat

/-- The bytes of doubles, one after the other. -/
def encodeDoubles (ds : List Double) : Bytes := ds.flatMap fun d => encodeWord d.bits

/-- The double at place `i` of a row of doubles. -/
def decodeAt (bs : Bytes) (i : Nat) : Double := ⟨decodeWord ((bs.drop (8 * i)).take 8)⟩

theorem length_encodeDoubles (ds : List Double) : (encodeDoubles ds).length = 8 * ds.length := by
  induction ds with
  | nil => rfl
  | cons d ds ih =>
    simp only [encodeDoubles, List.flatMap_cons, List.length_append, length_encodeWord,
      List.length_cons] at ih ⊢
    omega

theorem decodeAt_encodeDoubles (ds : List Double) (i : Nat) (h : i < ds.length) :
    decodeAt (encodeDoubles ds) i = ds[i] := by
  induction ds generalizing i with
  | nil => simp at h
  | cons d ds ih =>
    cases i with
    | zero =>
      simp [decodeAt, encodeDoubles]
    | succ i =>
      have := ih i (by simpa using h)
      simp only [decodeAt, encodeDoubles, List.flatMap_cons, List.drop_append,
        length_encodeWord] at this ⊢
      rw [List.drop_of_length_le (by rw [length_encodeWord]; omega), List.nil_append,
        show 8 * (i + 1) - 8 = 8 * i by omega, this]
      rfl

instance : Payload Unit where
  width := 0
  encode _ := []
  decode _ := ()
  length_encode _ := rfl
  decode_encode _ := rfl

instance : Payload UInt64 where
  width := 8
  encode := encodeWord
  decode := decodeWord
  length_encode := length_encodeWord
  decode_encode := decodeWord_encodeWord

instance : Payload Double where
  width := 8
  encode d := encodeWord d.bits
  decode bs := ⟨decodeWord bs⟩
  length_encode d := length_encodeWord d.bits
  decode_encode d := by simp

instance (n : Nat) : Payload (Vector Double n) where
  width := 8 * n
  encode v := encodeDoubles v.toList
  decode bs := .ofFn fun i => decodeAt bs i
  length_encode v := by simp [length_encodeDoubles]
  decode_encode v := by
    ext i hi
    simp [decodeAt_encodeDoubles v.toList i (by simpa using hi)]

end Payload

/-! ## Byte forms -/

/-- A payload of which every byte string of the right length is the byte form of a value, so that no two
byte strings of that length stand for the same value. -/
class LawfulPayload (P : Type) [Payload P] : Prop where
  encode_decode : ∀ bs : Bytes, bs.length = Payload.width P → Payload.encode (Payload.decode bs : P) = bs

namespace Payload

theorem encodeWord_decodeWord {bs : Bytes} (h : bs.length = 8) : encodeWord (decodeWord bs) = bs := by
  have hfits := Bytes.toNat_lt bs
  rw [h] at hfits
  rw [encodeWord, decodeWord, UInt64.toNat_ofNat_of_lt' hfits, ← h, Bytes.ofNat_toNat]

/-- A row of doubles is read word by word. -/
theorem ofFn_decodeAt (n : Nat) (bs : Bytes) :
    (List.ofFn fun i : Fin n => decodeAt bs i) =
      (Bytes.chunks 8 n bs).map fun piece => ⟨decodeWord piece⟩ := by
  apply List.ext_getElem?
  intro i
  rw [List.getElem?_map, List.getElem?_ofFn]
  split
  · rename_i hi
    rw [Bytes.getElem?_chunks bs hi, Nat.mul_comm i]
    rfl
  · rename_i hi
    rw [List.getElem?_eq_none (by rw [Bytes.length_chunks]; omega)]
    rfl

theorem encodeDoubles_ofFn {n : Nat} {bs : Bytes} (h : bs.length = n * 8) :
    encodeDoubles (List.ofFn fun i : Fin n => decodeAt bs i) = bs := by
  have hwords : (Bytes.chunks 8 n bs).map (fun piece => encodeWord (decodeWord piece)) =
      (Bytes.chunks 8 n bs).map id :=
    List.map_congr_left fun piece hpiece =>
      encodeWord_decodeWord (Bytes.length_of_mem_chunks h hpiece)
  rw [ofFn_decodeAt, encodeDoubles, List.flatMap_map, List.flatMap_def, hwords, List.map_id,
    Bytes.flatten_chunks h]

end Payload

open Payload

instance : LawfulPayload Unit where
  encode_decode _ h := (List.length_eq_zero_iff.1 h).symm

instance : LawfulPayload UInt64 where
  encode_decode _ h := encodeWord_decodeWord h

instance : LawfulPayload Double where
  encode_decode _ h := encodeWord_decodeWord h

instance (n : Nat) : LawfulPayload (Vector Double n) where
  encode_decode bs h := by
    show encodeDoubles (Vector.ofFn fun i : Fin n => decodeAt bs i).toList = bs
    rw [Vector.toList_ofFn]
    exact encodeDoubles_ofFn (h.trans (Nat.mul_comm 8 n))

end ElementGrid
