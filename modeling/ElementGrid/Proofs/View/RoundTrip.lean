import ElementGrid.Proofs.View.Contribution
/-!
# Round trips

A contribution falls into the pieces that its header announces, and each piece is a record, whatever
number it carries. So records that are written stand in their pieces one by one, which is why reading
undoes writing and no two lists of records are written alike.

## Main definitions

* `Bytes.numberAt` — the number that stands at some place
* `Contribution.pieces` — the pieces that a header announces
* `Contribution.recordOf`, `Contributed.ofPiece` — the record of a piece, as written and as read

## Main results

* `Contribution.mapM_decodeRecord_of_named`, `Contribution.mapM_decodeRecord_of_reserved` — the pieces are
  read unless one of them names no element
* `Contribution.pieces_of_encode` — written records stand in their pieces
* `Contribution.encode_reads_back` — records are read as they were written
-/

namespace ElementGrid

/-- The number in the `width` bytes from `start` on. -/
def Bytes.numberAt (bs : Bytes) (start width : Nat) : Nat := toNat ((bs.drop start).take width)

variable {P : Type} [Payload P]

/-- The record of a piece as it arrives from `rank`. -/
def Contributed.ofPiece (P : Type) [Payload P] (rank : Nat) (piece : Bytes) : Contributed P where
  gid := piece.numberAt 0 Contribution.gidWidth
  rank
  raw := piece.drop Contribution.gidWidth
  payload := Payload.decode (piece.drop Contribution.gidWidth)

namespace Contribution

/-- The pieces that the header announces, each as long as a record. -/
def pieces (P : Type) [Payload P] (bytes : Bytes) : List Bytes :=
  Bytes.chunks (recordWidth P) (bytes.numberAt 8 4) (bytes.drop headerWidth)

/-- The record of a piece. -/
def recordOf (P : Type) [Payload P] (piece : Bytes) : ViewRecord P :=
  ⟨piece.numberAt 0 gidWidth, Payload.decode (piece.drop gidWidth)⟩

/-! ## Reading pieces -/

theorem decodeRecord_eq (rank : Nat) (piece : Bytes) :
    decodeRecord (P := P) rank piece =
      if piece.numberAt 0 gidWidth = Gid.reserved then .error (.malformed rank .reservedGid)
      else .ok (.ofPiece P rank piece) := rfl

theorem mapM_decodeRecord_of_named (rank : Nat) {ps : List Bytes}
    (h : ∀ piece ∈ ps, piece.numberAt 0 gidWidth ≠ Gid.reserved) :
    ps.mapM (decodeRecord (P := P) rank) = .ok (ps.map (.ofPiece P rank)) :=
  List.mapM_eq_pure_map fun piece hpiece =>
    (decodeRecord_eq rank piece).trans (if_neg (h piece hpiece))

theorem mapM_decodeRecord_of_reserved (rank : Nat) {ps : List Bytes}
    (h : ∃ piece ∈ ps, piece.numberAt 0 gidWidth = Gid.reserved) :
    ps.mapM (decodeRecord (P := P) rank) = .error (.malformed rank .reservedGid) := by
  obtain ⟨piece, hpiece, hgid⟩ := h
  cases hread : ps.mapM (decodeRecord (P := P) rank) with
  | ok records =>
    obtain ⟨i, hi⟩ := List.getElem?_of_mem hpiece
    obtain ⟨r, -, hr⟩ := Except.getElem?_of_mapM_eq_ok hread hi
    rw [decodeRecord_eq, if_pos hgid] at hr
    cases hr
  | error e =>
    -- There is only one way for a piece to be refused.
    obtain ⟨piece', -, hfail⟩ := Except.exists_of_mapM_eq_error hread
    rw [decodeRecord_eq] at hfail
    split at hfail
    · cases hfail
      rfl
    · cases hfail

/-! ## Written records -/

variable {r : ViewRecord P} {records : List (ViewRecord P)} {bytes : Bytes}

theorem length_encodeRecord (r : ViewRecord P) : (encodeRecord r).length = recordWidth P := by
  rw [encodeRecord, List.length_append, Bytes.length_ofNat, Payload.length_encode, recordWidth]

theorem drop_encodeRecord (r : ViewRecord P) :
    (encodeRecord r).drop gidWidth = Payload.encode r.payload :=
  List.drop_left' (Bytes.length_ofNat _ _)

theorem numberAt_encodeRecord (h : Word.Fits r.gid) : (encodeRecord r).numberAt 0 gidWidth = r.gid := by
  rw [Bytes.numberAt, List.drop_zero, encodeRecord, List.take_left' (Bytes.length_ofNat _ _)]
  exact Bytes.toNat_ofNat h

theorem recordOf_encodeRecord (h : Word.Fits r.gid) : recordOf P (encodeRecord r) = r := by
  rw [recordOf, numberAt_encodeRecord h, drop_encodeRecord, Payload.decode_encode]

theorem ofPiece_encodeRecord (rank : Nat) (h : Word.Fits r.gid) :
    Contributed.ofPiece P rank (encodeRecord r) =
      ⟨r.gid, rank, Payload.encode r.payload, r.payload⟩ := by
  rw [Contributed.ofPiece, numberAt_encodeRecord h, drop_encodeRecord, Payload.decode_encode]

theorem length_of_mem_map_encodeRecord (records : List (ViewRecord P)) :
    ∀ piece ∈ records.map encodeRecord, piece.length = recordWidth P := by
  intro piece hpiece
  obtain ⟨r, -, rfl⟩ := List.mem_map.1 hpiece
  exact length_encodeRecord r

theorem chunks_flatMap_encodeRecord (records : List (ViewRecord P)) :
    Bytes.chunks (recordWidth P) records.length (records.flatMap encodeRecord) =
      records.map encodeRecord := by
  have hchunks := Bytes.chunks_flatten (length_of_mem_map_encodeRecord records)
  rwa [List.length_map, ← List.flatMap_def] at hchunks

/-- What is written is nothing at all, or a header that can announce the records and the records. -/
theorem encode_eq_ok (h : encode records = .ok bytes) : records = [] ∧ bytes = [] ∨
    records ≠ [] ∧ records.length < Word.halfModulus ∧
      bytes = header P records.length ++ records.flatMap encodeRecord := by
  rw [encode] at h
  split at h
  · rename_i hempty
    cases h
    exact .inl ⟨List.isEmpty_iff.1 hempty, rfl⟩
  · rename_i hne
    split at h
    · cases h
    · rename_i hcount
      cases h
      exact .inr ⟨fun hnil => hne (List.isEmpty_iff.2 hnil), Nat.lt_of_not_le hcount, rfl⟩

theorem exists_encode (h : records.length < Word.halfModulus) : ∃ bytes, encode records = .ok bytes := by
  rw [encode]
  split
  · exact ⟨_, rfl⟩
  · rw [if_neg (Nat.not_le.2 h)]
    exact ⟨_, rfl⟩

/-- Written records stand in their pieces. -/
theorem pieces_of_encode (h : encode records = .ok bytes) :
    pieces P bytes = records.map encodeRecord := by
  obtain ⟨rfl, rfl⟩ | ⟨-, hcount, rfl⟩ := encode_eq_ok h
  · rfl
  · obtain ⟨-, -, hnumber, hrest⟩ := fields_header_append (P := P) records.length
      (records.flatMap encodeRecord)
    rw [pieces, Bytes.numberAt, hnumber, hrest, Bytes.toNat_ofNat hcount,
      chunks_flatMap_encodeRecord]

theorem records_of_encode (h : encode records = .ok bytes) (hfits : ∀ r ∈ records, Word.Fits r.gid) :
    (pieces P bytes).map (recordOf P) = records := by
  have hback : ∀ r ∈ records, (recordOf P ∘ encodeRecord) r = id r :=
    fun r hr => recordOf_encodeRecord (hfits r hr)
  rw [pieces_of_encode h, List.map_map, List.map_congr_left hback, List.map_id]

/-- What is written is read piece by piece. -/
theorem decode_of_encode (rank : Nat) (hwidth : recordWidth P < Word.halfModulus)
    (h : encode records = .ok bytes) :
    decode P rank bytes = (pieces P bytes).mapM (decodeRecord rank) := by
  rw [pieces_of_encode h]
  obtain ⟨rfl, rfl⟩ | ⟨-, hcount, rfl⟩ := encode_eq_ok h
  · rfl
  · have hbody : records.length * recordWidth P = (records.flatMap encodeRecord).length := by
      rw [List.flatMap_def, Bytes.length_flatten (length_of_mem_map_encodeRecord records),
        List.length_map]
    rw [decode_header_append rank hwidth hcount hbody, chunks_flatMap_encodeRecord]

/-- Records are written as long as their number can be announced. They are read in the same order, each
with its sender and the bytes of its payload, unless one of them names no element, which is then held
against the sender. No other records are written with the same bytes. -/
theorem encode_reads_back (rank : Nat) (hwidth : recordWidth P < Word.halfModulus)
    (hcount : records.length < Word.halfModulus) (hfits : ∀ r ∈ records, Word.Fits r.gid) :
    ∃ bytes, encode records = .ok bytes ∧
      ((∀ r ∈ records, r.gid ≠ Gid.reserved) → decode P rank bytes =
        .ok (records.map fun r => ⟨r.gid, rank, Payload.encode r.payload, r.payload⟩)) ∧
      ((∃ r ∈ records, r.gid = Gid.reserved) →
        decode P rank bytes = .error (.malformed rank .reservedGid)) ∧
      ∀ others : List (ViewRecord P), (∀ r ∈ others, Word.Fits r.gid) →
        encode others = .ok bytes → others = records := by
  obtain ⟨bytes, hbytes⟩ := exists_encode hcount
  have hread := decode_of_encode rank hwidth hbytes
  rw [pieces_of_encode hbytes] at hread
  refine ⟨bytes, hbytes, fun hnamed => ?_, fun hreserved => ?_, fun others hothers hsame => ?_⟩
  · have harrive : ∀ r ∈ records, (Contributed.ofPiece P rank ∘ encodeRecord) r =
        ⟨r.gid, rank, Payload.encode r.payload, r.payload⟩ :=
      fun r hr => ofPiece_encodeRecord rank (hfits r hr)
    rw [hread, mapM_decodeRecord_of_named, List.map_map, List.map_congr_left harrive]
    intro piece hpiece
    obtain ⟨r, hr, rfl⟩ := List.mem_map.1 hpiece
    rw [numberAt_encodeRecord (hfits r hr)]
    exact hnamed r hr
  · obtain ⟨r, hr, hgid⟩ := hreserved
    rw [hread, mapM_decodeRecord_of_reserved]
    exact ⟨_, List.mem_map_of_mem hr, (numberAt_encodeRecord (hfits r hr)).trans hgid⟩
  · rw [← records_of_encode hsame hothers, records_of_encode hbytes hfits]

/-- Two points, one of which has a coordinate that is no number; the other is given again. With the number
that names no element before them they are not read. -/
theorem encode_reads_back_points :
    let points : List (ViewRecord (Vector Double 2)) :=
      [⟨7, #v[⟨0x7ff0000000000001⟩, ⟨0x8000000000000000⟩]⟩, ⟨3, #v[⟨0⟩, ⟨0⟩]⟩,
        ⟨3, #v[⟨0⟩, ⟨0⟩]⟩]
    let nobody : ViewRecord (Vector Double 2) := ⟨0, #v[⟨0⟩, ⟨0⟩]⟩
    recordWidth (Vector Double 2) < Word.halfModulus ∧ points.length < Word.halfModulus ∧
      (nobody :: points).length < Word.halfModulus ∧ (∀ r ∈ nobody :: points, Word.Fits r.gid) ∧
      (∀ r ∈ points, r.gid ≠ Gid.reserved) ∧
      (∃ bytes, encode points = .ok bytes ∧ decode (Vector Double 2) 5 bytes =
        .ok (points.map fun r => ⟨r.gid, 5, Payload.encode r.payload, r.payload⟩)) ∧
      ∃ bytes, encode (nobody :: points) = .ok bytes ∧
        decode (Vector Double 2) 5 bytes = .error (.malformed 5 .reservedGid) := by
  intro points nobody
  have hwidth : recordWidth (Vector Double 2) < Word.halfModulus := by decide
  have hcount : points.length < Word.halfModulus := by decide
  have hcount' : (nobody :: points).length < Word.halfModulus := by decide
  have hfits : ∀ r ∈ nobody :: points, Word.Fits r.gid := by decide
  have hnamed : ∀ r ∈ points, r.gid ≠ Gid.reserved := by decide
  refine ⟨hwidth, hcount, hcount', hfits, hnamed, ?_, ?_⟩
  · obtain ⟨bytes, hbytes, hread, -⟩ :=
      encode_reads_back 5 hwidth hcount fun r hr => hfits r (List.mem_cons_of_mem _ hr)
    exact ⟨bytes, hbytes, hread hnamed⟩
  · obtain ⟨bytes, hbytes, -, hrefused, -⟩ := encode_reads_back 5 hwidth hcount' hfits
    exact ⟨bytes, hbytes, hrefused ⟨nobody, List.mem_cons_self, rfl⟩⟩

end Contribution

end ElementGrid
