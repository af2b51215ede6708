import ElementGrid.Proofs.View.Grammar
import ElementGrid.Proofs.View.Scan
import ElementGrid.View.Gather
/-!
# How views fail

Each step of a view has its own ways to fail. Writing fails for the number of records only; what is read
breaks the protocol if it cannot be read; and a scan meets conflicts. So what a process makes of a round
tells who is to blame: the protocol, the records themselves, or somebody who tore the group down.

## Main results

* `Contribution.eq_of_encode_eq_error` — why records cannot be contributed
* `Contribution.isViolation_of_decode_eq_error` — why a contribution cannot be read
* `Canonical.exists_of_scan_eq_error` — why a scan fails
* `View.cases_of_receive_eq_error` — why a round fails
-/

namespace ElementGrid

variable {P : Type}

section Contributions

variable [Payload P]

theorem Contribution.eq_of_encode_eq_error {records : List (ViewRecord P)} {e : ViewError}
    (h : encode records = .error e) : e = .tooManyRecords records.length := by
  rw [encode] at h
  split at h
  · cases h
  · split at h
    · cases h
      rfl
    · cases h

/-- Who sends what cannot be read does not keep to the protocol. -/
theorem Contribution.isViolation_of_decode_eq_error {rank : Nat} {bytes : Bytes} {e : ViewError}
    (h : decode P rank bytes = .error e) : e.isViolation = true := by
  obtain ⟨-, hread⟩ | ⟨-, hread⟩ | ⟨-, hread⟩ | ⟨-, -, -, fault, hread⟩ :=
    decode_cases (P := P) rank bytes
  · cases h.symm.trans hread
  · cases h.symm.trans hread
  · cases h.symm.trans hread
    rfl
  · cases h.symm.trans hread
    rfl

end Contributions

namespace Canonical

theorem isViolation_of_decodeAll_eq_error [Payload P] {g : Gathered} {e : ViewError}
    (h : decodeAll P g = .error e) : e.isViolation = true := by
  obtain ⟨part, -, hpart⟩ := Except.exists_of_mapM_eq_error (Except.map_eq_error_iff.1 h)
  exact Contribution.isViolation_of_decode_eq_error hpart

/-- A scan fails only where two ranks contradict each other. -/
theorem exists_of_scan_eq_error {policy : ConflictPolicy} {kept : Option (Contributed P)}
    {l : List (Contributed P)} {e : ViewError} (h : scan policy kept l = .error e) :
    ∃ gid first second, e = .conflict gid first second := by
  induction l generalizing kept with
  | nil => cases h
  | cons r rest ih =>
    by_cases hsame : ∃ k ∈ kept, k.gid = r.gid
    · obtain ⟨k, hk, hgid⟩ := hsame
      cases hk
      by_cases hraw : k.raw = r.raw
      · rw [scan_same policy rest hgid hraw, Except.map_eq_error_iff] at h
        exact ih h
      · cases policy with
        | reject =>
          rw [scan_differs_reject rest hgid hraw] at h
          cases h
          exact ⟨r.gid, k.rank, r.rank, rfl⟩
        | lowestRankWins =>
          rw [scan_differs_lowest rest hgid hraw, Except.map_eq_error_iff] at h
          exact ih h
    · have hnew : ∀ k ∈ kept, k.gid ≠ r.gid := fun k hk hgid => hsame ⟨k, hk, hgid⟩
      rw [scan_new policy rest hnew, Except.map_eq_error_iff] at h
      exact ih h

theorem exists_of_canonicalize_eq_error {policy : ConflictPolicy} {records : List (Contributed P)}
    {e : ViewError} (h : (canonicalize policy records).result = .error e) :
    ∃ gid first second, e = .conflict gid first second := by
  rw [canonicalize] at h
  split at h
  · cases h
  · rename_i e' hscan
    cases h
    exact exists_of_scan_eq_error hscan

end Canonical

/-- A round fails because somebody broke the protocol, because two ranks contradict each other, or
because somebody tore the group down. -/
theorem View.cases_of_receive_eq_error [Payload P] {policy : ConflictPolicy} {participants : Nat}
    {sent : Bytes} {reply : Except ExchangeError Gathered} {e : ViewError}
    (h : (receive policy participants sent reply : Canonical.Outcome P).result = .error e) :
    e.isViolation = true ∨ (∃ gid first second, e = .conflict gid first second) ∨
      ∃ reason, e = .exchange (.aborted reason) := by
  cases reply with
  | error e' =>
    cases h
    cases e' with
    | malformedTable fault => exact .inl rfl
    | aborted reason => exact .inr (.inr ⟨reason, rfl⟩)
  | ok g =>
    rw [receive] at h
    by_cases hsize : g.size = participants
    · simp only [checkParticipants, if_pos hsize, Canonical.resolve] at h
      cases hread : Canonical.decodeAll P g with
      | error e' =>
        rw [hread] at h
        cases h
        exact .inl (Canonical.isViolation_of_decodeAll_eq_error hread)
      | ok records =>
        rw [hread] at h
        exact .inr (.inl (Canonical.exists_of_canonicalize_eq_error h))
    · simp only [checkParticipants, if_neg hsize] at h
      cases h
      exact .inl rfl

end ElementGrid
