import ElementGrid.View.Contribution
import ElementGrid.Proofs.Except
/-!
# Reading and writing contributions

A contribution that carries records is read as these records, in their order. What is written from
records of elements carries them.

## Main results

* `Contribution.decode_of_carries` — carried records are read
* `Contribution.carries_encode` — written records are carried
-/

namespace ElementGrid

theorem Bytes.chunks_flatten {width : Nat} {pieces : List Bytes}
    (h : ∀ piece ∈ pieces, piece.length = width) :
    chunks width pieces.length pieces.flatten = pieces := by
  induction pieces with
  | nil => rfl
  | cons piece pieces ih =>
    have hlen : piece.length = width := h piece (by simp)
    rw [List.length_cons, List.flatten_cons, chunks, List.take_left' hlen, List.drop_left' hlen,
      ih fun p hp => h p (by simp [hp])]

theorem Bytes.length_flatten {width : Nat} {pieces : List Bytes}
    (h : ∀ piece ∈ pieces, piece.length = width) :
    pieces.flatten.length = pieces.length * width := by
  induction pieces with
  | nil => simp
  | cons piece pieces ih =>
    rw [List.flatten_cons, List.length_append, h piece (by simp), ih fun p hp => h p (by simp [hp]),
      List.length_cons, Nat.succ_mul, Nat.add_comm]

namespace RawRecord

variable {P : Type} [Payload P]

theorem Fits.length_bytes {r : RawRecord} (h : r.Fits P) :
    r.bytes.length = Contribution.recordWidth P := by
  rw [bytes, List.length_append, Bytes.length_ofNat, h.length_raw, Contribution.recordWidth]

theorem Fits.decodeRecord_bytes {r : RawRecord} (h : r.Fits P) (rank : Nat) :
    Contribution.decodeRecord (P := P) rank r.bytes = .ok (r.arrived P rank) := by
  have hgid : Bytes.toNat (r.bytes.take Contribution.gidWidth) = r.gid := by
    rw [bytes, List.take_left' (Bytes.length_ofNat _ _), Bytes.toNat_ofNat]
    exact h.gid_fits
  have hraw : r.bytes.drop Contribution.gidWidth = r.raw := by
    rw [bytes, List.drop_left' (Bytes.length_ofNat _ _)]
  simp only [Contribution.decodeRecord, hgid, hraw, h.gid_ne_reserved, if_false, arrived]

end RawRecord

namespace Contribution

variable {P : Type} [Payload P]

@[simp]
theorem length_header (count : Nat) : (header P count).length = headerWidth := by
  simp [header, headerWidth]

/-- The fields of a header are read back: the tag, the length of a record and their number. -/
theorem fields_header_append (count : Nat) (body : Bytes) :
    (header P count ++ body).take 4 = Bytes.ofNat 4 tag ∧
      ((header P count ++ body).drop 4).take 4 = Bytes.ofNat 4 (recordWidth P) ∧
      ((header P count ++ body).drop 8).take 4 = Bytes.ofNat 4 count ∧
      (header P count ++ body).drop headerWidth = body := by
  have h8 : (Bytes.ofNat 4 tag ++ Bytes.ofNat 4 (recordWidth P)).length = 8 := by simp
  refine ⟨?_, ?_, ?_, ?_⟩
  · rw [header, List.append_assoc, List.append_assoc, List.take_left' (Bytes.length_ofNat _ _)]
  · rw [header, List.append_assoc, List.append_assoc, List.drop_left' (Bytes.length_ofNat _ _),
      List.take_left' (Bytes.length_ofNat _ _)]
  · rw [header, List.append_assoc, List.drop_left' h8, List.take_left' (Bytes.length_ofNat _ _)]
  · rw [List.drop_left' (length_header count)]

/-- A complete header leads to the records behind it, if it announces as many as there are. -/
theorem decode_header_append (rank : Nat) {count : Nat} {body : Bytes}
    (hwidth : recordWidth P < Word.halfModulus) (hcount : count < Word.halfModulus)
    (hbody : count * recordWidth P = body.length) :
    decode P rank (header P count ++ body) =
      (Bytes.chunks (recordWidth P) count body).mapM (decodeRecord rank) := by
  obtain ⟨htag, hlength, hnumber, hrest⟩ := fields_header_append (P := P) count body
  have hsize : (header P count ++ body).length = headerWidth + body.length := by
    rw [List.length_append, length_header]
  have hne : ¬ (header P count ++ body).isEmpty = true := by
    rw [List.isEmpty_iff_length_eq_zero, hsize, headerWidth]
    omega
  have hlong : ¬ headerWidth + body.length < headerWidth := by omega
  rw [decode, if_neg hne, hsize, if_neg hlong]
  simp only [htag, hlength, hnumber, hrest]
  rw [Bytes.toNat_ofNat (by decide), Bytes.toNat_ofNat hwidth, Bytes.toNat_ofNat hcount]
  simp only [ne_eq, not_true_eq_false, if_false, hbody]

theorem decode_of_carries (rank : Nat) {bytes : Bytes} {rs : List RawRecord}
    (h : Carries P bytes rs) : decode P rank bytes = .ok (rs.map (RawRecord.arrived P rank)) := by
  cases h with
  | nothing => rfl
  | records rs hwidth hcount hfits =>
    have hpieces : ∀ piece ∈ rs.map RawRecord.bytes, piece.length = recordWidth P := by
      intro piece hpiece
      obtain ⟨r, hr, rfl⟩ := List.mem_map.1 hpiece
      exact (hfits r hr).length_bytes
    have hbody : rs.length * recordWidth P = (rs.map RawRecord.bytes).flatten.length := by
      rw [Bytes.length_flatten hpieces, List.length_map]
    have hchunks := Bytes.chunks_flatten hpieces
    rw [List.length_map] at hchunks
    have hread : ∀ r ∈ rs, (decodeRecord rank ∘ RawRecord.bytes) r = .ok (r.arrived P rank) := by
      intro r hr
      rw [Function.comp_apply, (hfits r hr).decodeRecord_bytes rank]
    rw [List.flatMap_def, decode_header_append rank hwidth hcount hbody, hchunks, List.mapM_map]
    exact List.mapM_eq_pure_map hread

/-- What is written from records of elements carries them. -/
theorem carries_encode {records : List (ViewRecord P)} (hwidth : recordWidth P < Word.halfModulus)
    (hcount : records.length < Word.halfModulus)
    (hgids : ∀ r ∈ records, r.gid ≠ Gid.reserved ∧ Word.Fits r.gid) :
    ∃ bytes, encode records = .ok bytes ∧ Carries P bytes (records.map RawRecord.ofRecord) := by
  by_cases hempty : records = []
  · subst hempty
    exact ⟨[], rfl, .nothing⟩
  · refine ⟨header P records.length ++ records.flatMap encodeRecord, ?_, ?_⟩
    · rw [encode, if_neg (by simpa using hempty), if_neg (Nat.not_le.2 hcount)]
    · have hfits : ∀ r ∈ records.map RawRecord.ofRecord, r.Fits P := by
        intro raw hraw
        obtain ⟨r, hr, rfl⟩ := List.mem_map.1 hraw
        obtain ⟨hne, hfit⟩ := hgids r hr
        exact ⟨hne, hfit, Payload.length_encode r.payload⟩
      have := Carries.records (records.map RawRecord.ofRecord) hwidth (by simpa using hcount) hfits
      rwa [List.length_map, List.flatMap_map] at this

end Contribution

end ElementGrid
