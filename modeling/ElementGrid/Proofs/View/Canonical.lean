import ElementGrid.Proofs.Exchange.Gathered
import ElementGrid.Proofs.View.Contribution
import ElementGrid.Proofs.View.Scan
import Mathlib.Data.List.Forall2
/-!
# Canonical views

What the ranks of a grid sent says what their view is, whatever the order of the records: if all
payloads of each element agree it is these payloads by element, and otherwise a rejecting policy names
the least element about which there are two opinions, with the ranks that hold them.

## Main definitions

* `Canonical.Unanimous`, `Canonical.Contested` — all payloads of an element agree, or two differ
* `Canonical.IsView` — a list is the view of what was sent
* `Canonical.FirstConflict` — the conflict that is reported
* `Canonical.Sent` — what contributions say

## Main results

* `Canonical.resolve_reject_cases` — a view of what was sent, or its first conflict
* `Canonical.resolve_reject_exact` — rejecting is exact, and does not depend on the order of records
-/

namespace ElementGrid.Canonical

/-! ## What is sent, and what is made of it

`sent rank gid raw` says that `rank` sent the payload `raw` for the element `gid`. -/

section Sendings

variable (sent : Nat → Nat → Bytes → Prop)

/-- All payloads that were sent for one element are equal. -/
def Unanimous : Prop :=
  ∀ gid rank₁ rank₂ raw₁ raw₂, sent rank₁ gid raw₁ → sent rank₂ gid raw₂ → raw₁ = raw₂

/-- Two different payloads were sent for the element `gid`. -/
def Contested (gid : Nat) : Prop :=
  ∃ rank₁ rank₂ raw₁ raw₂, sent rank₁ gid raw₁ ∧ sent rank₂ gid raw₂ ∧ raw₁ ≠ raw₂

/-- The list holds exactly the payloads that were sent, by ascending number of their elements, of
which each stands once. -/
structure IsView {P : Type} [Payload P] (view : List (ViewRecord P)) : Prop where
  ascending : view.Pairwise fun u v => u.gid < v.gid
  mem_iff : ∀ v, v ∈ view ↔ ∃ rank raw, sent rank v.gid raw ∧ v.payload = Payload.decode raw

/-- The conflict about `gid` between the ranks `first` and `second` is the one to report. -/
structure FirstConflict (gid first second : Nat) : Prop where
  /-- No lesser element is contested. -/
  gid_least : IsLeast (Contested sent) gid
  /-- No lower rank sent anything for the element. -/
  first_least : IsLeast (fun rank => ∃ raw, sent rank gid raw) first
  /-- A rank that contradicts itself is both. -/
  second_of_two : ∀ raw raw', sent first gid raw → sent first gid raw' → raw ≠ raw' → second = first
  /-- If it does not, the other one is the lowest that contradicts it. -/
  second_least : (∀ raw raw', sent first gid raw → sent first gid raw' → raw = raw') →
    IsLeast (fun rank => ∃ raw raw', sent first gid raw ∧ sent rank gid raw' ∧ raw' ≠ raw) second

variable {sent}

theorem not_unanimous_of_contested {gid : Nat} (h : Contested sent gid) : ¬ Unanimous sent := by
  obtain ⟨rank₁, rank₂, raw₁, raw₂, h₁, h₂, hne⟩ := h
  exact fun hall => hne (hall gid rank₁ rank₂ raw₁ raw₂ h₁ h₂)

theorem FirstConflict.not_unanimous {gid first second : Nat}
    (h : FirstConflict sent gid first second) : ¬ Unanimous sent :=
  not_unanimous_of_contested h.gid_least.1

theorem Unanimous.congr {sent' : Nat → Nat → Bytes → Prop} (h : Unanimous sent)
    (hsame : ∀ gid raw, (∃ rank, sent rank gid raw) ↔ ∃ rank, sent' rank gid raw) :
    Unanimous sent' := by
  intro gid rank₁ rank₂ raw₁ raw₂ h₁ h₂
  obtain ⟨_, h₁'⟩ := (hsame gid raw₁).2 ⟨rank₁, h₁⟩
  obtain ⟨_, h₂'⟩ := (hsame gid raw₂).2 ⟨rank₂, h₂⟩
  exact h gid _ _ raw₁ raw₂ h₁' h₂'

/-- What was sent determines the conflict to report. -/
theorem FirstConflict.unique {gid first second gid' first' second' : Nat}
    (h : FirstConflict sent gid first second) (h' : FirstConflict sent gid' first' second') :
    gid' = gid ∧ first' = first ∧ second' = second := by
  obtain rfl := h'.gid_least.unique h.gid_least
  obtain rfl := h'.first_least.unique h.first_least
  refine ⟨rfl, rfl, ?_⟩
  by_cases hone : ∀ raw raw', sent first' gid' raw → sent first' gid' raw' → raw = raw'
  · exact (h'.second_least hone).unique (h.second_least hone)
  · push Not at hone
    obtain ⟨raw, raw', hraw, hraw', hne⟩ := hone
    exact (h'.second_of_two raw raw' hraw hraw' hne).trans
      (h.second_of_two raw raw' hraw hraw' hne).symm

/-- Lists of the same records are equal if both are in order. -/
theorem eq_of_ascending {P : Type} {view view' : List (ViewRecord P)}
    (h : view.Pairwise fun u v => u.gid < v.gid) (h' : view'.Pairwise fun u v => u.gid < v.gid)
    (hmem : ∀ v, v ∈ view' ↔ v ∈ view) : view' = view := by
  have hnodup : ∀ {l : List (ViewRecord P)}, l.Pairwise (fun u v => u.gid < v.gid) → l.Nodup :=
    fun hl => hl.imp fun hlt heq => by simp [heq] at hlt
  have hperm : view'.Perm view := (List.perm_ext_iff_of_nodup (hnodup h') (hnodup h)).2 hmem
  refine hperm.eq_of_pairwise ?_ h' h
  intro u v _ _ huv hvu
  omega

/-- What was sent by some rank determines the view. -/
theorem IsView.unique {P : Type} [Payload P] {sent' : Nat → Nat → Bytes → Prop}
    {view view' : List (ViewRecord P)} (h : IsView sent view) (h' : IsView sent' view')
    (hsame : ∀ gid raw, (∃ rank, sent rank gid raw) ↔ ∃ rank, sent' rank gid raw) :
    view' = view := by
  have hmem : ∀ v, v ∈ view' ↔ v ∈ view := by
    intro v
    rw [h.mem_iff, h'.mem_iff]
    constructor
    · rintro ⟨rank, raw, hsent, hpayload⟩
      obtain ⟨rank', hsent'⟩ := (hsame v.gid raw).2 ⟨rank, hsent⟩
      exact ⟨rank', raw, hsent', hpayload⟩
    · rintro ⟨rank, raw, hsent, hpayload⟩
      obtain ⟨rank', hsent'⟩ := (hsame v.gid raw).1 ⟨rank, hsent⟩
      exact ⟨rank', raw, hsent', hpayload⟩
  exact eq_of_ascending h.ascending h'.ascending hmem

end Sendings

/-! ## From records to views -/

section Records

variable {P : Type}

/-- What the records say. -/
def SentIn (records : List (Contributed P)) (rank gid : Nat) (raw : Bytes) : Prop :=
  ∃ c ∈ records, c.rank = rank ∧ c.gid = gid ∧ c.raw = raw

theorem unanimous_of_agreed {records : List (Contributed P)} (h : Agreed (sorted records)) :
    Unanimous (SentIn records) := by
  rintro gid rank₁ rank₂ raw₁ raw₂ ⟨a, ha, -, hagid, rfl⟩ ⟨b, hb, -, hbgid, rfl⟩
  exact h a (mem_sorted.2 ha) b (mem_sorted.2 hb) (hagid.trans hbgid.symm)

/-- Records that agree are in view when the first of each element is. -/
theorem isView_of_keeps [Payload P] {records : List (Contributed P)} {view : List (ViewRecord P)}
    (hread : ∀ c ∈ records, c.payload = Payload.decode c.raw)
    (hagreed : Agreed (sorted records)) (h : Keeps none (sorted records) view) :
    IsView (SentIn records) view where
  ascending := h.ascending
  mem_iff := by
    intro v
    constructor
    · intro hv
      obtain ⟨c, hfind, hpayload⟩ := h.leading v hv
      have hc : c ∈ records := mem_sorted.1 (List.mem_of_find?_eq_some hfind)
      have hgid : c.gid = v.gid := by simpa using List.find?_some hfind
      exact ⟨c.rank, c.raw, ⟨c, hc, rfl, hgid, rfl⟩, hpayload.symm.trans (hread c hc)⟩
    · rintro ⟨rank, raw, ⟨c, hc, -, hgid, rfl⟩, hpayload⟩
      rcases h.complete c (mem_sorted.2 hc) with ⟨k, hk, -⟩ | ⟨u, hu, hugid⟩
      · cases hk
      · obtain ⟨d, hfind, hdpayload⟩ := h.leading u hu
        have hd : d ∈ sorted records := List.mem_of_find?_eq_some hfind
        have hdgid : d.gid = u.gid := by simpa using List.find?_some hfind
        have hraw : d.raw = c.raw :=
          hagreed d hd c (mem_sorted.2 hc) (hdgid.trans hugid)
        -- The record that was kept says what `c` says, so both are one record of the view.
        have huv : u = v := by
          obtain ⟨ugid, upayload⟩ := u
          obtain ⟨vgid, vpayload⟩ := v
          simp only at hugid hgid hpayload hdpayload
          rw [← hdpayload, hread d (mem_sorted.1 hd), hraw, ← hpayload, hugid, hgid]
        exact huv ▸ hu

/-- The record that dissents first shows the conflict to report. -/
theorem firstConflict_of_dissent {records : List (Contributed P)} {k r : Contributed P}
    (h : Dissent (sorted records) k r) :
    FirstConflict (SentIn records) r.gid k.rank r.rank := by
  obtain ⟨seen, rest, hsplit, hagreed, hleads⟩ := h.split
  have hpairwise := pairwise_sorted records
  rw [hsplit] at hpairwise
  obtain ⟨-, htail, hcross⟩ := List.pairwise_append.1 hpairwise
  have hmem : ∀ {c}, c ∈ records ↔ c ∈ seen ∨ c ∈ r :: rest := by
    intro c
    rw [← mem_sorted, hsplit, List.mem_append]
  have hbehind : ∀ c ∈ r :: rest, Before r c := by
    intro c hc
    rcases List.mem_cons.1 hc with rfl | hc
    · exact .inr ⟨rfl, le_rfl⟩
    · exact (List.pairwise_cons.1 htail).1 c hc
  have hkseen : k ∈ records := hmem.2 (.inl hleads.mem)
  have hrseen : r ∈ records := hmem.2 (.inr List.mem_cons_self)
  have hkr : k.rank ≤ r.rank := (hcross k hleads.mem r List.mem_cons_self).rank_le h.gid_eq
  -- Whoever contradicts the leading record stands at the dissenting one or behind it.
  have hlate : ∀ c ∈ records, c.gid = r.gid → c.raw ≠ k.raw → r.rank ≤ c.rank := by
    intro c hc hgid hraw
    rcases hmem.1 hc with hc | hc
    · exact absurd (hagreed c hc k hleads.mem (hgid.trans h.gid_eq.symm)) hraw
    · exact (hbehind c hc).rank_le hgid.symm
  refine ⟨⟨?_, ?_⟩, ⟨?_, ?_⟩, ?_, ?_⟩
  · exact ⟨k.rank, r.rank, k.raw, r.raw, ⟨k, hkseen, rfl, h.gid_eq, rfl⟩, ⟨r, hrseen, rfl, rfl, rfl⟩,
      h.raw_ne⟩
  · rintro gid ⟨rank₁, rank₂, raw₁, raw₂, ⟨a, ha, -, hagid, rfl⟩, ⟨b, hb, -, hbgid, rfl⟩, hne⟩
    by_contra hlt
    have hearly : ∀ c ∈ records, c.gid = gid → c ∈ seen := by
      intro c hc hgid
      rcases hmem.1 hc with hc | hc
      · exact hc
      · have := (hbehind c hc).gid_le
        omega
    exact hne (hagreed a (hearly a ha hagid) b (hearly b hb hbgid) (hagid.trans hbgid.symm))
  · exact ⟨k.raw, k, hkseen, rfl, h.gid_eq, rfl⟩
  · rintro rank ⟨raw, c, hc, rfl, hgid, rfl⟩
    rcases hmem.1 hc with hc | hc
    · exact hleads.rank_le c hc (hgid.trans h.gid_eq.symm)
    · exact hkr.trans ((hbehind c hc).rank_le hgid.symm)
  · rintro raw raw' ⟨a, ha, harank, hagid, rfl⟩ ⟨b, hb, hbrank, hbgid, rfl⟩ hne
    by_cases hak : a.raw = k.raw
    · have := hlate b hb hbgid (hak ▸ hne.symm)
      omega
    · have := hlate a ha hagid hak
      omega
  · intro hone
    have hkraw : ∀ raw, SentIn records k.rank r.gid raw → raw = k.raw := fun raw hraw =>
      hone raw k.raw hraw ⟨k, hkseen, rfl, h.gid_eq, rfl⟩
    refine ⟨⟨k.raw, r.raw, ⟨k, hkseen, rfl, h.gid_eq, rfl⟩, ⟨r, hrseen, rfl, rfl, rfl⟩,
      h.raw_ne.symm⟩, ?_⟩
    rintro rank ⟨raw, raw', hraw, ⟨c, hc, rfl, hgid, rfl⟩, hne⟩
    exact hlate c hc hgid (hkraw raw hraw ▸ hne)

/-- A rejecting policy makes the view of records that agree, and reports the first conflict of others. -/
theorem canonicalize_reject_cases [Payload P] {records : List (Contributed P)}
    (hread : ∀ c ∈ records, c.payload = Payload.decode c.raw) :
    (Unanimous (SentIn records) ∧
      ∃ view, (canonicalize .reject records).result = .ok view ∧ IsView (SentIn records) view) ∨
    ∃ gid first second, (canonicalize .reject records).result = .error (.conflict gid first second) ∧
      FirstConflict (SentIn records) gid first second := by
  have hsorted := pairwise_sorted records
  have hbegin : LeadsIf ([] : List (Contributed P)) none := rfl
  have hscan := scan_reject (l := sorted records) hsorted (by simp [Agreed]) hbegin
  rw [List.nil_append] at hscan
  rcases hscan with ⟨out, hout, hagreed⟩ | ⟨k, r, herror, hdissent⟩
  · refine .inl ⟨unanimous_of_agreed hagreed, out.records, by rw [canonicalize, hout], ?_⟩
    exact isView_of_keeps hread hagreed (scan_records hsorted (by simp) hout)
  · exact .inr ⟨r.gid, k.rank, r.rank, by rw [canonicalize, herror], firstConflict_of_dissent hdissent⟩

end Records

/-! ## From contributions to views -/

/-- What ranks say that contribute the records `said` in rank order. -/
def Sent (said : List (List RawRecord)) (rank gid : Nat) (raw : Bytes) : Prop :=
  ∃ rs, said[rank]? = some rs ∧ ⟨gid, raw⟩ ∈ rs

section Contributions

variable {P : Type} [Payload P] {parts : List Bytes} {said : List (List RawRecord)} {g : Gathered}

/-- The records of all ranks as they arrive. -/
def arrivals (P : Type) [Payload P] (said : List (List RawRecord)) : List (Contributed P) :=
  (said.zipIdx.map fun (rs, rank) => rs.map (RawRecord.arrived P rank)).flatten

theorem mem_arrivals {c : Contributed P} :
    c ∈ arrivals P said ↔
      ∃ rank rs r, said[rank]? = some rs ∧ r ∈ rs ∧ RawRecord.arrived P rank r = c := by
  simp only [arrivals, List.mem_flatten, List.mem_map, Prod.exists,
    List.mem_zipIdx_iff_getElem?]
  constructor
  · rintro ⟨_, ⟨rs, rank, hrs, rfl⟩, hc⟩
    obtain ⟨r, hr, rfl⟩ := List.mem_map.1 hc
    exact ⟨rank, rs, r, hrs, hr, rfl⟩
  · rintro ⟨rank, rs, r, hrs, hr, rfl⟩
    exact ⟨_, ⟨rs, rank, hrs, rfl⟩, List.mem_map_of_mem hr⟩

theorem sentIn_arrivals : SentIn (arrivals P said) = Sent said := by
  funext rank gid raw
  apply propext
  constructor
  · rintro ⟨c, hc, rfl, rfl, rfl⟩
    obtain ⟨rank, rs, r, hrs, hr, rfl⟩ := mem_arrivals.1 hc
    exact ⟨rs, hrs, hr⟩
  · rintro ⟨rs, hrs, hr⟩
    exact ⟨_, mem_arrivals.2 ⟨rank, rs, _, hrs, hr, rfl⟩, rfl, rfl, rfl⟩

/-- Contributions that carry records are read as these, in rank order. -/
theorem decodeAll_of_carries (hsaid : List.Forall₂ (Contribution.Carries P) parts said)
    (hg : Gathered.ofContributions parts = .ok g) : decodeAll P g = .ok (arrivals P said) := by
  -- The first rank is left open, since the induction leaves the front of the lists behind.
  have hread : ∀ rank, ((parts.zipIdx rank).map Prod.swap).mapM
      (fun part => Contribution.decode P part.1 part.2) =
        .ok ((said.zipIdx rank).map fun part => part.1.map (RawRecord.arrived P part.2)) := by
    clear hg
    induction hsaid with
    | nil => exact fun _ => rfl
    | cons hcarries _ ih =>
      intro rank
      rw [List.zipIdx_cons, List.zipIdx_cons, List.map_cons, List.map_cons, List.mapM_cons,
        ih (rank + 1)]
      simp only [Prod.fst_swap, Prod.snd_swap, Contribution.decode_of_carries rank hcarries]
      rfl
  rw [decodeAll, Gathered.contributions_of_ofContributions hg]
  exact congrArg (List.flatten <$> ·) (hread 0)

/-- Rejecting makes the view of what was sent if it is unanimous, and reports its first conflict
otherwise. -/
theorem resolve_reject_cases (hsaid : List.Forall₂ (Contribution.Carries P) parts said)
    (hg : Gathered.ofContributions parts = .ok g) :
    (Unanimous (Sent said) ∧
      ∃ view, (resolve P .reject g).result = .ok view ∧ IsView (Sent said) view) ∨
    ∃ gid first second, (resolve P .reject g).result = .error (.conflict gid first second) ∧
      FirstConflict (Sent said) gid first second := by
  have hread : ∀ c ∈ arrivals P said, c.payload = Payload.decode c.raw := by
    intro c hc
    obtain ⟨rank, rs, r, -, -, rfl⟩ := mem_arrivals.1 hc
    rfl
  have hresolve : resolve P .reject g = canonicalize .reject (arrivals P said) := by
    rw [resolve, decodeAll_of_carries hsaid hg]
  rw [hresolve, ← sentIn_arrivals (P := P)]
  exact canonicalize_reject_cases hread

/-- Records that are put into another order within each contribution say the same. -/
theorem sent_of_perm_records {said' : List (List RawRecord)}
    (h : List.Forall₂ List.Perm said said') : Sent said' = Sent said := by
  funext rank gid raw
  apply propext
  induction h generalizing rank with
  | nil => rfl
  | cons hperm _ ih =>
    cases rank with
    | zero => simp [Sent, hperm.mem_iff]
    | succ rank => simpa [Sent] using ih rank

theorem exists_sent_iff {gid : Nat} {raw : Bytes} :
    (∃ rank, Sent said rank gid raw) ↔ ∃ rs ∈ said, ⟨gid, raw⟩ ∈ rs := by
  constructor
  · rintro ⟨rank, rs, hrs, hmem⟩
    exact ⟨rs, List.mem_of_getElem? hrs, hmem⟩
  · rintro ⟨rs, hrs, hmem⟩
    obtain ⟨rank, hrank⟩ := List.getElem?_of_mem hrs
    exact ⟨rank, rs, hrank, hmem⟩

theorem exists_sent_of_perm {said' : List (List RawRecord)}
    (h : ∃ mixed, List.Forall₂ List.Perm said mixed ∧ mixed.Perm said') (gid : Nat) (raw : Bytes) :
    (∃ rank, Sent said rank gid raw) ↔ ∃ rank, Sent said' rank gid raw := by
  obtain ⟨mixed, hrecords, hranks⟩ := h
  rw [← sent_of_perm_records hrecords, exists_sent_iff, exists_sent_iff]
  simp only [hranks.mem_iff]

variable {parts' : List Bytes} {said' : List (List RawRecord)} {g' : Gathered}

/-- The order of the records within contributions makes no difference. -/
theorem resolve_reject_of_perm_records (hsaid : List.Forall₂ (Contribution.Carries P) parts said)
    (hg : Gathered.ofContributions parts = .ok g)
    (hsaid' : List.Forall₂ (Contribution.Carries P) parts' said')
    (hg' : Gathered.ofContributions parts' = .ok g')
    (hperm : List.Forall₂ List.Perm said said') :
    (resolve P .reject g').result = (resolve P .reject g).result := by
  have hcases := resolve_reject_cases hsaid' hg'
  rw [sent_of_perm_records hperm] at hcases
  rcases resolve_reject_cases hsaid hg with
    ⟨hall, view, hview, hisView⟩ | ⟨gid, first, second, herror, hconflict⟩ <;>
  rcases hcases with ⟨hall', view', hview', hisView'⟩ | ⟨gid', first', second', herror', hconflict'⟩
  · rw [hview, hview', hisView.unique hisView' fun _ _ => Iff.rfl]
  · exact absurd hall hconflict'.not_unanimous
  · exact absurd hall' hconflict.not_unanimous
  · obtain ⟨rfl, rfl, rfl⟩ := hconflict.unique hconflict'
    rw [herror, herror']

/-- The order of the ranks makes no difference to a view. -/
theorem resolve_reject_of_perm_ranks (hsaid : List.Forall₂ (Contribution.Carries P) parts said)
    (hg : Gathered.ofContributions parts = .ok g)
    (hsaid' : List.Forall₂ (Contribution.Carries P) parts' said')
    (hg' : Gathered.ofContributions parts' = .ok g')
    (hperm : ∃ mixed, List.Forall₂ List.Perm said mixed ∧ mixed.Perm said')
    {view : List (ViewRecord P)} (hview : (resolve P .reject g).result = .ok view) :
    (resolve P .reject g').result = .ok view := by
  have hsame := exists_sent_of_perm hperm
  rcases resolve_reject_cases hsaid hg with
    ⟨hall, view₁, hview₁, hisView⟩ | ⟨gid, first, second, herror, hconflict⟩
  · rcases resolve_reject_cases hsaid' hg' with
      ⟨hall', view', hview', hisView'⟩ | ⟨gid', first', second', herror', hconflict'⟩
    · rw [hview', hisView.unique hisView' hsame, ← hview₁, hview]
    · exact absurd (hall.congr hsame) hconflict'.not_unanimous
  · rw [herror] at hview
    cases hview

/-- Rejecting succeeds exactly if what was sent is unanimous. The view is then that of what was sent,
and no order of records or ranks changes it; otherwise the first conflict is reported, which no order
of records changes. -/
theorem resolve_reject_exact (hne : parts ≠ [])
    (hsaid : List.Forall₂ (Contribution.Carries P) parts said) :
    ∃ g, Gathered.ofContributions parts = .ok g ∧
      ((∃ view, (resolve P .reject g).result = .ok view) ↔ Unanimous (Sent said)) ∧
      (∀ view, (resolve P .reject g).result = .ok view → IsView (Sent said) view) ∧
      (∀ e, (resolve P .reject g).result = .error e →
        ∃ gid first second, e = .conflict gid first second ∧
          FirstConflict (Sent said) gid first second) ∧
      ∀ parts' said' g', List.Forall₂ (Contribution.Carries P) parts' said' →
        Gathered.ofContributions parts' = .ok g' →
        (List.Forall₂ List.Perm said said' →
          (resolve P .reject g').result = (resolve P .reject g).result) ∧
        ((∃ mixed, List.Forall₂ List.Perm said mixed ∧ mixed.Perm said') →
          ∀ view, (resolve P .reject g).result = .ok view →
            (resolve P .reject g').result = .ok view) := by
  have hg := Gathered.ofContributions_eq_ok hne
  refine ⟨_, hg, ?_, ?_, ?_, fun parts' said' g' hsaid' hg' => ⟨fun hperm => ?_, fun hperm view hview => ?_⟩⟩
  · rcases resolve_reject_cases hsaid hg with
      ⟨hall, view, hview, -⟩ | ⟨gid, first, second, herror, hconflict⟩
    · exact ⟨fun _ => hall, fun _ => ⟨view, hview⟩⟩
    · refine ⟨?_, fun hall => absurd hall hconflict.not_unanimous⟩
      rintro ⟨view, hview⟩
      rw [herror] at hview
      cases hview
  · intro view hview
    rcases resolve_reject_cases hsaid hg with
      ⟨-, view', hview', hisView⟩ | ⟨gid, first, second, herror, -⟩
    · rw [hview] at hview'
      cases hview'
      exact hisView
    · rw [herror] at hview
      cases hview
  · intro e he
    rcases resolve_reject_cases hsaid hg with
      ⟨-, view, hview, -⟩ | ⟨gid, first, second, herror, hconflict⟩
    · rw [hview] at he
      cases he
    · rw [herror] at he
      cases he
      exact ⟨gid, first, second, rfl, hconflict⟩
  · exact resolve_reject_of_perm_records hsaid hg hsaid' hg' hperm
  · exact resolve_reject_of_perm_ranks hsaid hg hsaid' hg' hperm hview

end Contributions

/-- Of three ranks one has nothing to say, and the others contradict each other about the element
`5`: rejecting fails, and names the two. -/
theorem resolve_reject_contradiction :
    let said : List (List RawRecord) :=
      [[⟨2, Bytes.ofNat 8 1⟩, ⟨5, Bytes.ofNat 8 7⟩], [], [⟨5, Bytes.ofNat 8 8⟩]]
    let parts := said.map fun rs =>
      Contribution.header UInt64 rs.length ++ rs.flatMap RawRecord.bytes
    parts ≠ [] ∧ List.Forall₂ (Contribution.Carries UInt64) parts said ∧
      ∃ g, Gathered.ofContributions parts = .ok g ∧ ¬ Unanimous (Sent said) ∧
        ∃ first second, (resolve UInt64 .reject g).result = .error (.conflict 5 first second) := by
  intro said parts
  have hne : parts ≠ [] := by simp [parts, said]
  have hcarries : ∀ rs ∈ said, Contribution.Carries UInt64
      (Contribution.header UInt64 rs.length ++ rs.flatMap RawRecord.bytes) rs := by
    intro rs hrs
    refine .records rs (by decide) ?_ ?_
    · revert rs
      decide
    · intro r hr
      have hall : ∀ rs ∈ said, ∀ r ∈ rs, r.gid ≠ Gid.reserved ∧ Word.Fits r.gid ∧
          r.raw.length = Payload.width UInt64 := by decide
      obtain ⟨hgid, hfits, hlength⟩ := hall rs hrs r hr
      exact ⟨hgid, hfits, hlength⟩
  have hsaid : List.Forall₂ (Contribution.Carries UInt64) parts said := by
    rw [List.forall₂_map_left_iff, List.forall₂_same]
    exact hcarries
  have hcontested : ¬ Unanimous (Sent said) := by
    intro hall
    have hsame := hall 5 0 2 (Bytes.ofNat 8 7) (Bytes.ofNat 8 8) ⟨_, rfl, by simp⟩ ⟨_, rfl, by simp⟩
    exact absurd hsame (by decide)
  have hentry : ∀ {rank gid raw}, Sent said rank gid raw →
      gid = 2 ∧ raw = Bytes.ofNat 8 1 ∨ gid = 5 := by
    rintro rank gid raw ⟨rs, hrs, hr⟩
    have hmem := List.mem_of_getElem? hrs
    simp only [said, List.mem_cons, List.not_mem_nil, or_false] at hmem
    rcases hmem with rfl | rfl | rfl <;> grind
  obtain ⟨g, hg, hiff, -, herror, -⟩ := resolve_reject_exact hne hsaid
  refine ⟨hne, hsaid, g, hg, hcontested, ?_⟩
  cases hresult : (resolve UInt64 .reject g).result with
  | ok view => exact absurd (hiff.1 ⟨view, hresult⟩) hcontested
  | error e =>
    obtain ⟨gid, first, second, rfl, hconflict⟩ := herror e hresult
    obtain ⟨rank₁, rank₂, raw₁, raw₂, h₁, h₂, hdiffer⟩ := hconflict.gid_least.1
    rcases hentry h₁ with ⟨rfl, rfl⟩ | rfl
    · rcases hentry h₂ with ⟨-, rfl⟩ | h
      · exact absurd rfl hdiffer
      · omega
    · exact ⟨first, second, rfl⟩

end ElementGrid.Canonical
