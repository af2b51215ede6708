import ElementGrid.Proofs.View.RoundTrip
/-!
# The grammar of contributions

A contribution that is read is empty, or it is a header with the records that it announces, each of which
names an element. Nothing else is read, and what is read could not have been written otherwise, except that
no records can be written in two ways.

## Main definitions

* `Contribution.Legible` — a header with the records that it announces
* `Contribution.OtherWidth` — a header that announces records of another length
* `Bytes.next?` — the next bytes, if there are so many
* `Contribution.checkedDecode` — reading that stops where a read would go beyond the end

## Main results

* `Contribution.decode_cases` — which contributions are read, and why the others are not
* `Contribution.exists_decode_iff`, `Contribution.decode_eq_recordSize_iff`,
  `Contribution.exists_decode_eq_malformed_iff` — when each of the answers is given
* `Contribution.encode_recordOf_pieces` — what is read is written with the same bytes
* `Contribution.checkedDecode_eq` — no read goes beyond the end
* `Contribution.decode_exact` — all of it together
-/

namespace ElementGrid

variable {P : Type} [Payload P]

/-- The record that has arrived, without its sender. -/
def Contributed.record (r : Contributed P) : ViewRecord P := ⟨r.gid, r.payload⟩

namespace Contribution

/-- The byte string is a complete header with as many records of a `P` behind it as it announces, none of
which carries the number that names no element. -/
structure Legible (P : Type) [Payload P] (bytes : Bytes) : Prop where
  complete : headerWidth ≤ bytes.length
  tag_eq : bytes.numberAt 0 4 = tag
  width_eq : bytes.numberAt 4 4 = recordWidth P
  length_eq : bytes.length = headerWidth + bytes.numberAt 8 4 * recordWidth P
  gid_ne : ∀ i < bytes.numberAt 8 4,
    bytes.numberAt (headerWidth + i * recordWidth P) gidWidth ≠ Gid.reserved

/-- The byte string begins with a complete header that announces records of another length. -/
structure OtherWidth (P : Type) [Payload P] (bytes : Bytes) : Prop where
  complete : headerWidth ≤ bytes.length
  tag_eq : bytes.numberAt 0 4 = tag
  width_ne : bytes.numberAt 4 4 ≠ recordWidth P

variable {bytes piece : Bytes}

/-! ## What is read -/

theorem decode_eq (rank : Nat) (bytes : Bytes) : decode P rank bytes =
    if bytes.isEmpty then .ok []
    else if bytes.length < headerWidth then .error (.malformed rank (.shortHeader bytes.length))
    else if bytes.numberAt 0 4 ≠ tag then .error (.malformed rank (.badTag (bytes.numberAt 0 4)))
    else if bytes.numberAt 4 4 ≠ recordWidth P then
      .error (.recordSize rank (recordWidth P) (bytes.numberAt 4 4))
    else if bytes.numberAt 8 4 * recordWidth P ≠ (bytes.drop headerWidth).length then
      .error (.malformed rank (.wrongBody (bytes.numberAt 8 4) (bytes.drop headerWidth).length))
    else (pieces P bytes).mapM (decodeRecord rank) := rfl

/-- The number that a piece begins with stands in the byte string at the place of the piece. -/
theorem numberAt_piece {i : Nat} (h : (pieces P bytes)[i]? = some piece) :
    i < bytes.numberAt 8 4 ∧
      piece.numberAt 0 gidWidth = bytes.numberAt (headerWidth + i * recordWidth P) gidWidth := by
  have hi : i < bytes.numberAt 8 4 := by
    have hlt := (List.getElem?_eq_some_iff.1 h).1
    rwa [pieces, Bytes.length_chunks] at hlt
  have hwidth : min gidWidth (recordWidth P) = gidWidth := Nat.min_eq_left (Nat.le_add_right _ _)
  refine ⟨hi, ?_⟩
  rw [pieces, Bytes.getElem?_chunks _ hi, List.drop_drop] at h
  cases h
  rw [Bytes.numberAt, List.drop_zero, List.take_take, hwidth, Bytes.numberAt]

theorem named_pieces_iff : (∀ piece ∈ pieces P bytes, piece.numberAt 0 gidWidth ≠ Gid.reserved) ↔
    ∀ i < bytes.numberAt 8 4,
      bytes.numberAt (headerWidth + i * recordWidth P) gidWidth ≠ Gid.reserved := by
  constructor
  · intro h i hi
    have hlt : i < (pieces P bytes).length := by rwa [pieces, Bytes.length_chunks]
    have hpiece := List.getElem?_eq_getElem hlt
    rw [← (numberAt_piece hpiece).2]
    exact h _ (List.getElem_mem hlt)
  · intro h piece hpiece
    obtain ⟨i, hi⟩ := List.getElem?_of_mem hpiece
    obtain ⟨hlt, hnumber⟩ := numberAt_piece hi
    rw [hnumber]
    exact h i hlt

/-- A contribution is empty, or legible, or made of records of another length, or malformed. -/
theorem decode_cases (rank : Nat) (bytes : Bytes) :
    (bytes = [] ∧ decode P rank bytes = .ok []) ∨
    (Legible P bytes ∧ decode P rank bytes = .ok ((pieces P bytes).map (.ofPiece P rank))) ∨
    (OtherWidth P bytes ∧
      decode P rank bytes = .error (.recordSize rank (recordWidth P) (bytes.numberAt 4 4))) ∨
    (bytes ≠ [] ∧ ¬ Legible P bytes ∧ ¬ OtherWidth P bytes ∧
      ∃ fault, decode P rank bytes = .error (.malformed rank fault)) := by
  rw [decode_eq]
  split
  · rename_i hempty
    exact .inl ⟨List.isEmpty_iff.1 hempty, rfl⟩
  rename_i hne
  have hne : bytes ≠ [] := fun hnil => hne (List.isEmpty_iff.2 hnil)
  -- From here on each check that fails leaves one way to go wrong, and the next check has what passed.
  split
  · rename_i hshort
    exact .inr (.inr (.inr ⟨hne, fun h => Nat.not_le.2 hshort h.complete,
      fun h => Nat.not_le.2 hshort h.complete, _, rfl⟩))
  rename_i hcomplete
  have hcomplete := Nat.not_lt.1 hcomplete
  split
  · rename_i htag
    exact .inr (.inr (.inr ⟨hne, fun h => htag h.tag_eq, fun h => htag h.tag_eq, _, rfl⟩))
  rename_i htag
  have htag := Decidable.not_not.1 htag
  split
  · rename_i hwidth
    exact .inr (.inr (.inl ⟨⟨hcomplete, htag, hwidth⟩, rfl⟩))
  rename_i hwidth
  have hwidth := Decidable.not_not.1 hwidth
  have hother : ¬ OtherWidth P bytes := fun h => h.width_ne hwidth
  split
  · rename_i hbody
    refine .inr (.inr (.inr ⟨hne, fun h => hbody ?_, hother, _, rfl⟩))
    rw [List.length_drop, h.length_eq, Nat.add_sub_cancel_left]
  rename_i hbody
  have hbody := Decidable.not_not.1 hbody
  by_cases hnamed : ∀ piece ∈ pieces P bytes, piece.numberAt 0 gidWidth ≠ Gid.reserved
  · have hlength : bytes.length = headerWidth + bytes.numberAt 8 4 * recordWidth P := by
      rw [hbody, List.length_drop]
      omega
    exact .inr (.inl ⟨⟨hcomplete, htag, hwidth, hlength, named_pieces_iff.1 hnamed⟩,
      mapM_decodeRecord_of_named rank hnamed⟩)
  · have hreserved : ∃ piece ∈ pieces P bytes, piece.numberAt 0 gidWidth = Gid.reserved := by
      simpa using hnamed
    exact .inr (.inr (.inr ⟨hne, fun h => hnamed (named_pieces_iff.2 h.gid_ne), hother, _,
      mapM_decodeRecord_of_reserved rank hreserved⟩))

theorem Legible.not_otherWidth (h : Legible P bytes) : ¬ OtherWidth P bytes :=
  fun hother => hother.width_ne h.width_eq

theorem OtherWidth.ne_nil (h : OtherWidth P bytes) : bytes ≠ [] := by
  rintro rfl
  cases h.complete

theorem exists_decode_iff (rank : Nat) (bytes : Bytes) :
    (∃ records, decode P rank bytes = .ok records) ↔ bytes = [] ∨ Legible P bytes := by
  obtain ⟨hnil, h⟩ | ⟨hlegible, h⟩ | ⟨hother, h⟩ | ⟨hne, hillegible, -, fault, h⟩ :=
    decode_cases (P := P) rank bytes
  · exact ⟨fun _ => .inl hnil, fun _ => ⟨_, h⟩⟩
  · exact ⟨fun _ => .inr hlegible, fun _ => ⟨_, h⟩⟩
  · rw [h]
    exact ⟨nofun, fun hread => (hread.elim hother.ne_nil (·.not_otherWidth hother)).elim⟩
  · rw [h]
    exact ⟨nofun, fun hread => (hread.elim hne hillegible).elim⟩

theorem decode_eq_recordSize_iff (rank : Nat) (bytes : Bytes) {sender expected found : Nat} :
    decode P rank bytes = .error (.recordSize sender expected found) ↔
      OtherWidth P bytes ∧ sender = rank ∧ expected = recordWidth P ∧ found = bytes.numberAt 4 4 := by
  obtain ⟨hnil, h⟩ | ⟨hlegible, h⟩ | ⟨hother, h⟩ | ⟨-, -, hsame, fault, h⟩ :=
    decode_cases (P := P) rank bytes <;> rw [h]
  · exact ⟨nofun, fun hrefused => (hrefused.1.ne_nil hnil).elim⟩
  · exact ⟨nofun, fun hrefused => (hlegible.not_otherWidth hrefused.1).elim⟩
  · constructor
    · intro heq
      cases heq
      exact ⟨hother, rfl, rfl, rfl⟩
    · rintro ⟨-, rfl, rfl, rfl⟩
      rfl
  · exact ⟨nofun, fun hrefused => (hsame hrefused.1).elim⟩

theorem exists_decode_eq_malformed_iff (rank : Nat) (bytes : Bytes) {sender : Nat} :
    (∃ fault, decode P rank bytes = .error (.malformed sender fault)) ↔
      sender = rank ∧ bytes ≠ [] ∧ ¬ Legible P bytes ∧ ¬ OtherWidth P bytes := by
  obtain ⟨hnil, h⟩ | ⟨hlegible, h⟩ | ⟨hother, h⟩ | ⟨hne, hillegible, hsame, fault, h⟩ :=
    decode_cases (P := P) rank bytes <;> rw [h]
  · exact ⟨nofun, fun hrefused => (hrefused.2.1 hnil).elim⟩
  · exact ⟨nofun, fun hrefused => (hrefused.2.2.1 hlegible).elim⟩
  · exact ⟨nofun, fun hrefused => (hrefused.2.2.2 hother).elim⟩
  · constructor
    · rintro ⟨fault', heq⟩
      cases heq
      exact ⟨rfl, hne, hillegible, hsame⟩
    · rintro ⟨rfl, -⟩
      exact ⟨fault, rfl⟩

/-! ## Writing what was read -/

theorem ofNat_numberAt {start width : Nat} (h : start + width ≤ bytes.length) :
    Bytes.ofNat width (bytes.numberAt start width) = (bytes.drop start).take width := by
  have hlength : ((bytes.drop start).take width).length = width := by
    rw [List.length_take, List.length_drop]
    omega
  have hback := Bytes.ofNat_toNat ((bytes.drop start).take width)
  rwa [hlength] at hback

theorem Legible.length_of_mem_pieces (h : Legible P bytes) (hpiece : piece ∈ pieces P bytes) :
    piece.length = recordWidth P := by
  refine Bytes.length_of_mem_chunks ?_ hpiece
  rw [List.length_drop, h.length_eq, Nat.add_sub_cancel_left]

/-- A legible byte string is the header that announces its pieces, and the pieces. -/
theorem Legible.eq_header_append (h : Legible P bytes) :
    bytes = header P (pieces P bytes).length ++ (pieces P bytes).flatten := by
  have hcomplete : 12 ≤ bytes.length := h.complete
  have hhead : header P (pieces P bytes).length = bytes.take headerWidth := by
    rw [pieces, Bytes.length_chunks, header, ← h.tag_eq, ← h.width_eq, ofNat_numberAt (by omega),
      ofNat_numberAt (by omega), ofNat_numberAt (by omega), List.drop_zero, ← List.take_add,
      ← List.take_add]
    rfl
  have hbody : (pieces P bytes).flatten = bytes.drop headerWidth := by
    refine Bytes.flatten_chunks ?_
    rw [List.length_drop, h.length_eq, Nat.add_sub_cancel_left]
  rw [hhead, hbody, List.take_append_drop]

theorem encodeRecord_recordOf [LawfulPayload P] (h : piece.length = recordWidth P) :
    encodeRecord (recordOf P piece) = piece := by
  have hgid : 0 + gidWidth ≤ piece.length := by
    rw [h, recordWidth]
    omega
  have hraw : (piece.drop gidWidth).length = Payload.width P := by
    rw [List.length_drop, h, recordWidth, Nat.add_sub_cancel_left]
  rw [encodeRecord, recordOf, ofNat_numberAt hgid, LawfulPayload.encode_decode _ hraw, List.drop_zero,
    List.take_append_drop]

/-- Records that were read are written with the bytes from which they were read, if there are any. -/
theorem encode_recordOf_pieces [LawfulPayload P] (h : Legible P bytes) (hne : pieces P bytes ≠ []) :
    encode ((pieces P bytes).map (recordOf P)) = .ok bytes := by
  have hcount : (pieces P bytes).length < Word.halfModulus := by
    have hlt := Bytes.toNat_lt ((bytes.drop 8).take 4)
    have hfour : ((bytes.drop 8).take 4).length = 4 := by
      have hcomplete : 12 ≤ bytes.length := h.complete
      rw [List.length_take, List.length_drop]
      omega
    rw [hfour] at hlt
    rw [pieces, Bytes.length_chunks]
    exact hlt
  have hback : ∀ piece ∈ pieces P bytes, (encodeRecord ∘ recordOf P) piece = id piece :=
    fun piece hpiece => encodeRecord_recordOf (h.length_of_mem_pieces hpiece)
  rw [encode, if_neg (by simpa using hne), List.length_map, if_neg (Nat.not_le.2 hcount),
    List.flatMap_def, List.map_map, List.map_congr_left hback, List.map_id, ← h.eq_header_append]

theorem pieces_eq_nil_iff (h : Legible P bytes) : pieces P bytes = [] ↔ bytes = header P 0 := by
  constructor
  · intro hnil
    rw [h.eq_header_append, hnil]
    exact List.append_nil _
  · rintro rfl
    have hnumber := (fields_header_append (P := P) 0 []).2.2.1
    rw [List.append_nil] at hnumber
    rw [pieces, Bytes.numberAt, hnumber]
    rfl

theorem decode_header_zero (rank : Nat) (hwidth : recordWidth P < Word.halfModulus) :
    decode P rank (header P 0) = .ok [] := by
  have hread : decode P rank (header P 0 ++ []) = (Bytes.chunks (recordWidth P) 0 []).mapM _ :=
    decode_header_append rank hwidth (by decide) (Nat.zero_mul _)
  rwa [List.append_nil] at hread

end Contribution

/-! ## Reads stay inside -/

/-- The next `n` bytes and what follows them, if there are so many. -/
def Bytes.next? (n : Nat) (bs : Bytes) : Option (Bytes × Bytes) :=
  if n ≤ bs.length then some (bs.take n, bs.drop n) else none

theorem Bytes.next?_of_le {n : Nat} {bs : Bytes} (h : n ≤ bs.length) :
    bs.next? n = some (bs.take n, bs.drop n) := if_pos h

/-- A field of the first `total` bytes, behind the `start` bytes that have been read, is a field of all bytes. -/
theorem Bytes.next?_drop_take (start n : Nat) {total : Nat} {bs : Bytes} (hfield : start + n ≤ total)
    (htotal : total ≤ bs.length) : Bytes.next? n ((bs.take total).drop start) =
      some ((bs.drop start).take n, (bs.take total).drop (start + n)) := by
  have hlong : n ≤ ((bs.take total).drop start).length := by
    rw [List.length_drop, List.length_take]
    omega
  have hmin : min n (total - start) = n := by omega
  rw [next?_of_le hlong, List.drop_take, List.take_take, hmin, ← List.drop_take, List.drop_drop]

namespace Contribution

/-- The record of a piece, or nothing if the piece is too short for it. -/
def checkedRecord (P : Type) [Payload P] (rank : Nat) (piece : Bytes) :
    Option (Except ViewError (Contributed P)) := do
  let (number, raw) ← piece.next? gidWidth
  if Bytes.toNat number = Gid.reserved then return .error (.malformed rank .reservedGid)
  let (form, _) ← raw.next? (Payload.width P)
  return .ok ⟨Bytes.toNat number, rank, raw, Payload.decode form⟩

/-- The records of the next pieces, or nothing if there are not so many pieces. -/
def checkedRecords (P : Type) [Payload P] (rank : Nat) :
    Nat → Bytes → Option (Except ViewError (List (Contributed P)))
  | 0, _ => some (.ok [])
  | count + 1, bytes => do
    let (piece, rest) ← bytes.next? (recordWidth P)
    match ← checkedRecord P rank piece with
    | .error e => return .error e
    | .ok r => return (← checkedRecords P rank count rest).map (r :: ·)

/-- The records that `rank` contributed, read field by field; nothing comes of it if some read goes beyond
the end of the bytes that it is taken from. -/
def checkedDecode (P : Type) [Payload P] (rank : Nat) (bytes : Bytes) :
    Option (Except ViewError (List (Contributed P))) := do
  if bytes.isEmpty then return .ok []
  if bytes.length < headerWidth then return .error (.malformed rank (.shortHeader bytes.length))
  let (head, body) ← bytes.next? headerWidth
  let (found, head) ← head.next? 4
  if Bytes.toNat found ≠ tag then return .error (.malformed rank (.badTag (Bytes.toNat found)))
  let (width, head) ← head.next? 4
  if Bytes.toNat width ≠ recordWidth P then
    return .error (.recordSize rank (recordWidth P) (Bytes.toNat width))
  let (count, _) ← head.next? 4
  if Bytes.toNat count * recordWidth P ≠ body.length then
    return .error (.malformed rank (.wrongBody (Bytes.toNat count) body.length))
  checkedRecords P rank (Bytes.toNat count) body

theorem checkedRecord_eq (rank : Nat) {piece : Bytes} (h : piece.length = recordWidth P) :
    checkedRecord P rank piece = some (decodeRecord rank piece) := by
  have hgid : gidWidth ≤ piece.length := by
    rw [h, recordWidth]
    omega
  have hraw : (piece.drop gidWidth).length = Payload.width P := by
    rw [List.length_drop, h, recordWidth, Nat.add_sub_cancel_left]
  rw [checkedRecord, Bytes.next?_of_le hgid]
  simp only [Option.bind_eq_bind, Option.bind_some, decodeRecord]
  split
  · rfl
  · rw [Bytes.next?_of_le (Nat.le_of_eq hraw.symm), ← hraw, List.take_length]
    rfl

theorem checkedRecords_eq (rank : Nat) {count : Nat} {bytes : Bytes}
    (h : bytes.length = count * recordWidth P) :
    checkedRecords P rank count bytes =
      some ((Bytes.chunks (recordWidth P) count bytes).mapM (decodeRecord rank)) := by
  induction count generalizing bytes with
  | zero => rfl
  | succ count ih =>
    rw [Nat.succ_mul] at h
    have hpiece : (bytes.take (recordWidth P)).length = recordWidth P := by
      rw [List.length_take]
      omega
    have hrest : (bytes.drop (recordWidth P)).length = count * recordWidth P := by
      rw [List.length_drop]
      omega
    rw [checkedRecords, Bytes.next?_of_le (by omega), Bytes.chunks, List.mapM_cons]
    simp only [Option.bind_eq_bind, Option.bind_some, checkedRecord_eq rank hpiece, ih hrest]
    cases decodeRecord (P := P) rank (bytes.take (recordWidth P)) with
    | error e => rfl
    | ok r =>
      cases (Bytes.chunks (recordWidth P) count (bytes.drop (recordWidth P))).mapM
        (decodeRecord (P := P) rank) <;> rfl

/-- No read goes beyond the end, whatever the bytes are. -/
theorem checkedDecode_eq (rank : Nat) (bytes : Bytes) :
    checkedDecode P rank bytes = some (decode P rank bytes) := by
  rw [checkedDecode, decode]
  simp only [Option.bind_eq_bind]
  split
  · rfl
  split
  · rfl
  rename_i hcomplete
  have hcomplete : headerWidth ≤ bytes.length := Nat.not_lt.1 hcomplete
  -- The fields of the header are read one behind the other, and stand in the first bytes of all.
  have htag := Bytes.next?_drop_take 0 4 (by decide) hcomplete
  have hwidth := Bytes.next?_drop_take 4 4 (by decide) hcomplete
  have hcount := Bytes.next?_drop_take 8 4 (by decide) hcomplete
  rw [List.drop_zero, List.drop_zero] at htag
  rw [Bytes.next?_of_le hcomplete]
  simp only [Option.bind_some, htag, hwidth, hcount]
  split
  · rfl
  split
  · rfl
  split
  · rfl
  rename_i hbody
  exact checkedRecords_eq rank (Decidable.not_not.1 hbody).symm

/-! ## The grammar -/

theorem map_record_ofPiece (rank : Nat) (ps : List Bytes) :
    (ps.map (.ofPiece P rank)).map Contributed.record = ps.map (recordOf P) :=
  List.map_map

/-- What is read from a byte string that is not empty is written with the same bytes, unless no record was
announced. -/
theorem encode_record_of_decode [LawfulPayload P] {rank : Nat} {records : List (Contributed P)}
    (h : decode P rank bytes = .ok records) :
    (records ≠ [] → encode (records.map Contributed.record) = .ok bytes) ∧
      (bytes ≠ [] → (encode (records.map Contributed.record) ≠ .ok bytes ↔ bytes = header P 0)) := by
  obtain ⟨rfl, hread⟩ | ⟨hlegible, hread⟩ | ⟨-, hread⟩ | ⟨-, -, -, fault, hread⟩ :=
    decode_cases (P := P) rank bytes
  · cases h.symm.trans hread
    exact ⟨fun hne => absurd rfl hne, fun hne => absurd rfl hne⟩
  · cases h.symm.trans hread
    rw [map_record_ofPiece]
    by_cases hnone : pieces P bytes = []
    · rw [hnone]
      refine ⟨fun hne => absurd rfl hne, fun hne => ?_⟩
      exact ⟨fun _ => (pieces_eq_nil_iff hlegible).1 hnone, fun _ hsame => hne (by cases hsame; rfl)⟩
    · have hsame := encode_recordOf_pieces hlegible hnone
      refine ⟨fun _ => hsame, fun _ => ⟨fun hne => absurd hsame hne, fun hheader => ?_⟩⟩
      exact absurd ((pieces_eq_nil_iff hlegible).2 hheader) hnone
  · cases h.symm.trans hread
  · cases h.symm.trans hread

/-- A contribution is read if it is empty or legible. It is refused for the length of its records if another
length is announced, and as malformed in all other cases. No read goes beyond the end. Records that were read
are written with the same bytes, and a header that announces no records is the only contribution that is read
and could have been written otherwise. -/
theorem decode_exact [LawfulPayload P] (rank : Nat) (bytes : Bytes)
    (hwidth : recordWidth P < Word.halfModulus) :
    ((∃ records, decode P rank bytes = .ok records) ↔ bytes = [] ∨ Legible P bytes) ∧
      (∀ sender expected found, decode P rank bytes = .error (.recordSize sender expected found) ↔
        OtherWidth P bytes ∧ sender = rank ∧ expected = recordWidth P ∧ found = bytes.numberAt 4 4) ∧
      (∀ sender, (∃ fault, decode P rank bytes = .error (.malformed sender fault)) ↔
        sender = rank ∧ bytes ≠ [] ∧ ¬ Legible P bytes ∧ ¬ OtherWidth P bytes) ∧
      checkedDecode P rank bytes = some (decode P rank bytes) ∧
      (∀ records, decode P rank bytes = .ok records →
        (records ≠ [] → encode (records.map Contributed.record) = .ok bytes) ∧
          (bytes ≠ [] →
            (encode (records.map Contributed.record) ≠ .ok bytes ↔ bytes = header P 0))) ∧
      decode P rank (header P 0) = .ok [] :=
  ⟨exists_decode_iff rank bytes, fun _ _ _ => decode_eq_recordSize_iff rank bytes,
    fun _ => exists_decode_eq_malformed_iff rank bytes, checkedDecode_eq rank bytes,
    fun _ h => encode_record_of_decode h, decode_header_zero rank hwidth⟩

/-- A point in the plane is read and written with the same bytes. Without its last byte it is malformed, and
it is no point in space. -/
theorem decode_exact_point :
    let point : Bytes := header (Vector Double 2) 1 ++
      encodeRecord (⟨7, #v[⟨0x7ff0000000000001⟩, ⟨0x8000000000000000⟩]⟩ : ViewRecord (Vector Double 2))
    recordWidth (Vector Double 2) < Word.halfModulus ∧ recordWidth (Vector Double 3) < Word.halfModulus ∧
      Legible (Vector Double 2) point ∧
      (∃ records, decode (Vector Double 2) 5 point = .ok records ∧
        encode (records.map Contributed.record) = .ok point) ∧
      (∃ fault, decode (Vector Double 2) 5 (point.take 35) = .error (.malformed 5 fault)) ∧
      decode (Vector Double 3) 5 point = .error (.recordSize 5 32 24) := by
  intro point
  have hplane : recordWidth (Vector Double 2) < Word.halfModulus := by decide
  have hspace : recordWidth (Vector Double 3) < Word.halfModulus := by decide
  have hlegible : Legible (Vector Double 2) point :=
    ⟨by decide, by decide, by decide, by decide, by decide⟩
  refine ⟨hplane, hspace, hlegible, ?_, ?_, ?_⟩
  · obtain ⟨hread, -, -, -, hback, -⟩ := decode_exact (P := Vector Double 2) 5 point hplane
    obtain ⟨records, hrecords⟩ := hread.2 (.inr hlegible)
    obtain ⟨-, honly⟩ := hback records hrecords
    refine ⟨records, hrecords, Classical.byContradiction fun hother => ?_⟩
    exact absurd ((honly (by decide)).1 hother) (by decide)
  · have hillegible : ¬ Legible (Vector Double 2) (point.take 35) :=
      fun h => absurd h.length_eq (by decide)
    have hsame : ¬ OtherWidth (Vector Double 2) (point.take 35) :=
      fun h => absurd h.width_ne (by decide)
    obtain ⟨-, -, hmalformed, -⟩ := decode_exact (P := Vector Double 2) 5 (point.take 35) hplane
    exact (hmalformed 5).2 ⟨rfl, by decide, hillegible, hsame⟩
  · obtain ⟨-, hwidth, -⟩ := decode_exact (P := Vector Double 3) 5 point hspace
    exact (hwidth 5 32 24).2 ⟨⟨by decide, by decide, by decide⟩, rfl, by decide, by decide⟩

end Contribution

end ElementGrid
