import ElementGrid.View.Error
import ElementGrid.View.Payload
import ElementGrid.Ident
/-!
# Contributions to a view

What a process knows of its elements goes into one byte string: a header with a tag, the length of a
record and their number, and then the records, each an element's number and its payload. Nothing to
say is the empty string.

## Main definitions

* `ViewRecord` — an element with its payload
* `Contribution.encode` — the byte string of a list of records
* `Contributed` — a record as it arrived: from whom, and its payload's bytes
* `Contribution.decode` — the records of a byte string
* `RawRecord` — a record as it is written
* `Contribution.Carries` — the records that a byte string stands for
-/

namespace ElementGrid

/-- An element with its payload. -/
structure ViewRecord (P : Type) where
  gid : Nat
  payload : P
  deriving DecidableEq, Repr

/-- A record as it arrived. -/
structure Contributed (P : Type) where
  gid : Nat
  rank : Nat
  /-- The bytes of the payload, by which payloads are compared. -/
  raw : Bytes
  payload : P
  deriving DecidableEq, Repr

namespace Contribution

/-- The tag with which every contribution with records begins. -/
def tag : Nat := 0x56434B47

/-- The bytes before the first record. -/
def headerWidth : Nat := 12

/-- The bytes of an element's number. -/
def gidWidth : Nat := 8

variable (P : Type) [Payload P]

/-- The bytes of a record. -/
def recordWidth : Nat := gidWidth + Payload.width P

variable {P}

/-- The bytes of a record: the number of the element and the payload. -/
def encodeRecord (r : ViewRecord P) : Bytes := Bytes.ofNat gidWidth r.gid ++ Payload.encode r.payload

/-- The header that announces `count` records. -/
def header (P : Type) [Payload P] (count : Nat) : Bytes :=
  Bytes.ofNat 4 tag ++ Bytes.ofNat 4 (recordWidth P) ++ Bytes.ofNat 4 count

/-- The contribution of a list of records, as long as their number can be announced. -/
def encode (records : List (ViewRecord P)) : Except ViewError Bytes :=
  if records.isEmpty then .ok []
  else if Word.halfModulus ≤ records.length then .error (.tooManyRecords records.length)
  else .ok (header P records.length ++ records.flatMap encodeRecord)

/-- The record of one piece of a contribution. -/
def decodeRecord (rank : Nat) (bytes : Bytes) : Except ViewError (Contributed P) :=
  let gid := Bytes.toNat (bytes.take gidWidth)
  let raw := bytes.drop gidWidth
  if gid = Gid.reserved then .error (.malformed rank .reservedGid)
  else .ok { gid, rank, raw, payload := Payload.decode raw }

/-- The records that `rank` contributed. The header is checked from front to back, then the records
in order. -/
def decode (P : Type) [Payload P] (rank : Nat) (bytes : Bytes) :
    Except ViewError (List (Contributed P)) :=
  if bytes.isEmpty then .ok []
  else if bytes.length < headerWidth then .error (.malformed rank (.shortHeader bytes.length))
  else
    let found := Bytes.toNat (bytes.take 4)
    let width := Bytes.toNat ((bytes.drop 4).take 4)
    let count := Bytes.toNat ((bytes.drop 8).take 4)
    let body := bytes.drop headerWidth
    if found ≠ tag then .error (.malformed rank (.badTag found))
    else if width ≠ recordWidth P then .error (.recordSize rank (recordWidth P) width)
    else if count * recordWidth P ≠ body.length then
      .error (.malformed rank (.wrongBody count body.length))
    else (Bytes.chunks (recordWidth P) count body).mapM (decodeRecord rank)

end Contribution

/-! ## Grammar -/

/-- A record as it is written: the number of an element, and the bytes of its payload. -/
structure RawRecord where
  gid : Nat
  raw : Bytes
  deriving DecidableEq, Repr

namespace RawRecord

/-- The record as it is written for a payload. -/
def ofRecord {P : Type} [Payload P] (r : ViewRecord P) : RawRecord :=
  ⟨r.gid, Payload.encode r.payload⟩

/-- The record names an element, and its payload has the length of a `P`. -/
structure Fits (P : Type) [Payload P] (r : RawRecord) : Prop where
  gid_ne_reserved : r.gid ≠ Gid.reserved
  gid_fits : Word.Fits r.gid
  length_raw : r.raw.length = Payload.width P

/-- The bytes of a record: the number of the element and the payload. -/
def bytes (r : RawRecord) : Bytes := Bytes.ofNat Contribution.gidWidth r.gid ++ r.raw

/-- The record as it arrives from `rank`. -/
def arrived (P : Type) [Payload P] (rank : Nat) (r : RawRecord) : Contributed P :=
  ⟨r.gid, rank, r.raw, Payload.decode r.raw⟩

end RawRecord

/-- The byte string carries the records: it is nothing at all and there are none, or it is a header
that can announce them and the records themselves. -/
inductive Contribution.Carries (P : Type) [Payload P] : Bytes → List RawRecord → Prop
  | nothing : Carries P [] []
  | records (rs : List RawRecord) :
    recordWidth P < Word.halfModulus → rs.length < Word.halfModulus → (∀ r ∈ rs, r.Fits P) →
    Carries P (header P rs.length ++ rs.flatMap RawRecord.bytes) rs

end ElementGrid
