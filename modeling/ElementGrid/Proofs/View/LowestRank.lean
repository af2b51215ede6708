import ElementGrid.Proofs.Sorting
import ElementGrid.Proofs.View.Canonical
/-!
# Views in which the lowest rank wins

A policy that lets the lowest rank win never fails. Of each element the view holds what the lowest rank
that sent it said first, whoever else said what; this rests on the order of the records, which keeps
apart the ranks and leaves alone what one rank sent. Every record is in view or reported as dropped.

## Main definitions

* `Canonical.Leading` — what the lowest rank that sent an element said of it first
* `Canonical.IsLowest` — a list is the view of what leads
* `Canonical.Steady` — no rank contradicts itself
* `Canonical.reportedDuplicates` — how many records are reported as dropped for saying nothing new

## Main results

* `Canonical.filter_sorted` — the order of what one rank sent about one element is kept
* `Canonical.length_eq_of_scan` — every record is kept or dropped
* `Canonical.scan_lowest_of_reject` — what a rejecting scan makes is also made if the lowest rank wins
* `Canonical.resolve_lowest_exact` — the view in which the lowest rank wins
-/

namespace ElementGrid.Canonical

variable {P : Type}

/-! ## The scan if the lowest rank wins -/

section Scan

variable {policy : ConflictPolicy} {kept : Option (Contributed P)} {l : List (Contributed P)}
  {out : Kept P}

theorem exists_scan_lowest (kept : Option (Contributed P)) (l : List (Contributed P)) :
    ∃ out, scan .lowestRankWins kept l = .ok out := by
  induction l generalizing kept with
  | nil => exact ⟨{}, rfl⟩
  | cons r rest ih =>
    by_cases hsame : ∃ k ∈ kept, k.gid = r.gid
    · obtain ⟨k, rfl, hgid⟩ := hsame
      obtain ⟨out, hout⟩ := ih (some k)
      by_cases hraw : k.raw = r.raw
      · exact ⟨_, by rw [scan_same _ rest hgid hraw, hout]; rfl⟩
      · exact ⟨_, by rw [scan_differs_lowest rest hgid hraw, hout]; rfl⟩
    · obtain ⟨out, hout⟩ := ih (some r)
      exact ⟨_, by rw [scan_new _ rest fun k hk hgid => hsame ⟨k, hk, hgid⟩, hout]; rfl⟩

/-- What may have become of a record in a scan that succeeds. -/
theorem scan_cons_eq_ok {r : Contributed P} {rest : List (Contributed P)}
    (h : scan policy kept (r :: rest) = .ok out) :
    (∃ out', (∀ k ∈ kept, k.gid ≠ r.gid) ∧ scan policy (some r) rest = .ok out' ∧
      out = { out' with records := ⟨r.gid, r.payload⟩ :: out'.records }) ∨
    (∃ k out', kept = some k ∧ k.gid = r.gid ∧ k.raw = r.raw ∧ scan policy kept rest = .ok out' ∧
      out = { out' with duplicates := out'.duplicates + 1 }) ∨
    ∃ k out', kept = some k ∧ k.gid = r.gid ∧ k.raw ≠ r.raw ∧ policy = .lowestRankWins ∧
      scan policy kept rest = .ok out' ∧ out = { out' with conflicts := out'.conflicts + 1 } := by
  by_cases hsame : ∃ k ∈ kept, k.gid = r.gid
  · obtain ⟨k, rfl, hgid⟩ := hsame
    by_cases hraw : k.raw = r.raw
    · rw [scan_same _ rest hgid hraw, Except.map_eq_ok_iff] at h
      obtain ⟨out', h', rfl⟩ := h
      exact .inr (.inl ⟨k, out', rfl, hgid, hraw, h', rfl⟩)
    · cases policy with
      | reject =>
        rw [scan_differs_reject rest hgid hraw] at h
        cases h
      | lowestRankWins =>
        rw [scan_differs_lowest rest hgid hraw, Except.map_eq_ok_iff] at h
        obtain ⟨out', h', rfl⟩ := h
        exact .inr (.inr ⟨k, out', rfl, hgid, hraw, rfl, h', rfl⟩)
  · have hnew : ∀ k ∈ kept, k.gid ≠ r.gid := fun k hk hgid => hsame ⟨k, hk, hgid⟩
    rw [scan_new _ rest hnew, Except.map_eq_ok_iff] at h
    obtain ⟨out', h', rfl⟩ := h
    exact .inl ⟨out', hnew, h', rfl⟩

/-- What a rejecting scan makes is also made if the lowest rank wins: neither meets a conflict. -/
theorem scan_lowest_of_reject (h : scan .reject kept l = .ok out) :
    scan .lowestRankWins kept l = .ok out := by
  induction l generalizing kept out with
  | nil => exact h
  | cons r rest ih =>
    obtain ⟨out', hnew, h', rfl⟩ | ⟨k, out', rfl, hgid, hraw, h', rfl⟩ | ⟨-, -, -, -, -, hpolicy, -⟩ :=
      scan_cons_eq_ok h
    · rw [scan_new _ rest hnew, ih h']
      rfl
    · rw [scan_same _ rest hgid hraw, ih h']
      rfl
    · cases hpolicy

/-- Every record is kept, or dropped for one of two reasons. -/
theorem length_eq_of_scan (h : scan policy kept l = .ok out) :
    l.length = out.records.length + out.duplicates + out.conflicts := by
  induction l generalizing kept out with
  | nil =>
    cases h
    rfl
  | cons r rest ih =>
    rw [List.length_cons]
    obtain ⟨out', -, h', rfl⟩ | ⟨-, out', -, -, -, h', rfl⟩ | ⟨-, out', -, -, -, -, h', rfl⟩ :=
      scan_cons_eq_ok h
    · have := ih h'
      simp only [List.length_cons]
      omega
    · have := ih h'
      show rest.length + 1 = out'.records.length + (out'.duplicates + 1) + out'.conflicts
      omega
    · have := ih h'
      show rest.length + 1 = out'.records.length + out'.duplicates + (out'.conflicts + 1)
      omega

end Scan

/-! ## What is reported of a scan -/

/-- How many records are reported as dropped for saying nothing new. -/
def reportedDuplicates (events : List Event) : Nat :=
  events.foldr (fun e n => match e with | .duplicates count => count + n | _ => n) 0

theorem reportedDuplicates_events (k : Kept P) : reportedDuplicates k.events = k.duplicates := by
  have hconflicts : ∀ n (events : List Event),
      reportedDuplicates (List.replicate n .conflict ++ events) = reportedDuplicates events := by
    intro n events
    induction n with
    | zero => rfl
    | succ n ih => exact ih
  rw [Kept.events, hconflicts]
  split
  · rename_i hnone
    exact hnone.symm
  · rfl

theorem count_conflict_events (k : Kept P) : k.events.count .conflict = k.conflicts := by
  rw [Kept.events, List.count_append, List.count_replicate_self]
  split <;> simp

/-! ## The order of the records -/

section Order

variable {records : List (Contributed P)} {gid : Nat} {c : Contributed P}

/-- The order of what one rank sent about one element is kept. -/
theorem filter_sorted (records : List (Contributed P)) (gid rank : Nat) :
    (sorted records).filter (fun c => c.gid == gid && c.rank == rank) =
      records.filter fun c => c.gid == gid && c.rank == rank := by
  refine filter_mergeSort before_trans before_total records fun a b ha hb => ?_
  simp only [Bool.and_eq_true, beq_iff_eq] at ha hb
  exact before_iff.2 (.inr ⟨ha.1.trans hb.1.symm, (ha.2.trans hb.2.symm).le⟩)

/-- The first record of an element comes from the lowest rank that sent one, and is the first of these. -/
theorem find?_sorted (h : (sorted records).find? (fun c => c.gid == gid) = some c) :
    records.find? (fun d => d.gid == gid && d.rank == c.rank) = some c ∧
      ∀ d ∈ records, d.gid = gid → c.rank ≤ d.rank := by
  obtain ⟨hgid, front, back, hsplit, hfront⟩ := List.find?_eq_some_iff_append.1 h
  have hgid : c.gid = gid := by simpa using hgid
  have hfront : ∀ d ∈ front, d.gid ≠ gid := by simpa using hfront
  refine ⟨?_, ?_⟩
  · have hfind : (sorted records).find? (fun d => d.gid == gid && d.rank == c.rank) = some c := by
      refine List.find?_eq_some_iff_append.2 ⟨by simp [hgid], front, back, hsplit, ?_⟩
      intro d hd
      simp [hfront d hd]
    rw [← List.head?_filter, ← filter_sorted, List.head?_filter, hfind]
  · intro d hd hdgid
    have hd : d ∈ front ++ c :: back := hsplit ▸ mem_sorted.2 hd
    rw [List.mem_append, List.mem_cons] at hd
    rcases hd with hd | rfl | hd
    · exact absurd hdgid (hfront d hd)
    · exact le_rfl
    · have hpairwise := pairwise_sorted records
      rw [hsplit] at hpairwise
      have hbefore := (List.pairwise_cons.1 (List.pairwise_append.1 hpairwise).2.1).1 d hd
      exact hbefore.rank_le (hgid.trans hdgid.symm)

end Order

/-! ## What leads -/

/-- The lowest rank that sent the element `gid` sent the payload `raw` for it first. -/
def Leading (said : List (List RawRecord)) (gid : Nat) (raw : Bytes) : Prop :=
  ∃ rank rs, said[rank]? = some rs ∧ rs.find? (fun r => r.gid == gid) = some ⟨gid, raw⟩ ∧
    ∀ rank' raw', Sent said rank' gid raw' → rank ≤ rank'

/-- The list holds every element that was sent, by ascending number, with the payload that leads. -/
structure IsLowest {P : Type} [Payload P] (said : List (List RawRecord)) (view : List (ViewRecord P)) :
    Prop where
  ascending : view.Pairwise fun u v => u.gid < v.gid
  sent_iff : ∀ gid, (∃ v ∈ view, v.gid = gid) ↔ ∃ rank raw, Sent said rank gid raw
  leading : ∀ v ∈ view, ∃ raw, Leading said v.gid raw ∧ v.payload = Payload.decode raw

/-- No rank sent two different payloads for one element. -/
def Steady (said : List (List RawRecord)) : Prop :=
  ∀ rank gid raw raw', Sent said rank gid raw → Sent said rank gid raw' → raw = raw'

variable [Payload P] {parts : List Bytes} {said said' : List (List RawRecord)} {g g' : Gathered}
  {gid rank : Nat} {raw raw' : Bytes}

theorem Leading.sent (h : Leading said gid raw) : ∃ rank, Sent said rank gid raw := by
  obtain ⟨rank, rs, hrs, hfind, -⟩ := h
  exact ⟨rank, rs, hrs, List.mem_of_find?_eq_some hfind⟩

theorem Leading.unique (h : Leading said gid raw) (h' : Leading said gid raw') : raw' = raw := by
  obtain ⟨rank, rs, hrs, hfind, hleast⟩ := h
  obtain ⟨rank', rs', hrs', hfind', hleast'⟩ := h'
  have hle := hleast rank' raw' ⟨rs', hrs', List.mem_of_find?_eq_some hfind'⟩
  have hle' := hleast' rank raw ⟨rs, hrs, List.mem_of_find?_eq_some hfind⟩
  obtain rfl := Nat.le_antisymm hle hle'
  rw [hrs] at hrs'
  cases hrs'
  rw [hfind] at hfind'
  cases hfind'
  rfl

/-- If no rank contradicts itself, what leads is what the lowest rank sent, in whatever order. -/
theorem Steady.leading_iff (h : Steady said) :
    Leading said gid raw ↔ ∃ rank, Sent said rank gid raw ∧
      ∀ rank' raw', Sent said rank' gid raw' → rank ≤ rank' := by
  constructor
  · rintro ⟨rank, rs, hrs, hfind, hleast⟩
    exact ⟨rank, ⟨rs, hrs, List.mem_of_find?_eq_some hfind⟩, hleast⟩
  · rintro ⟨rank, ⟨rs, hrs, hmem⟩, hleast⟩
    obtain ⟨⟨gid', raw'⟩, hfind⟩ : ∃ r, rs.find? (fun r => r.gid == gid) = some r :=
      Option.isSome_iff_exists.1 (List.find?_isSome.2 ⟨_, hmem, by simp⟩)
    obtain rfl : gid' = gid := by simpa using List.find?_some hfind
    have hmem' := List.mem_of_find?_eq_some hfind
    obtain rfl := h rank gid' raw raw' ⟨rs, hrs, hmem⟩ ⟨rs, hrs, hmem'⟩
    exact ⟨rank, rs, hrs, hfind, hleast⟩

theorem Steady.of_perm_records (h : Steady said) (hperm : List.Forall₂ List.Perm said said') :
    Steady said' := by
  rw [Steady, sent_of_perm_records hperm]
  exact h

theorem Steady.leading_of_perm_records (h : Steady said)
    (hperm : List.Forall₂ List.Perm said said') :
    Leading said' gid raw ↔ Leading said gid raw := by
  rw [(h.of_perm_records hperm).leading_iff, h.leading_iff, sent_of_perm_records hperm]

theorem IsLowest.mem_iff {view : List (ViewRecord P)} (h : IsLowest said view) (v : ViewRecord P) :
    v ∈ view ↔ ∃ raw, Leading said v.gid raw ∧ v.payload = Payload.decode raw := by
  refine ⟨h.leading v, ?_⟩
  rintro ⟨raw, hleading, hpayload⟩
  obtain ⟨rank, hsent⟩ := hleading.sent
  obtain ⟨u, hu, hgid⟩ := (h.sent_iff v.gid).2 ⟨rank, raw, hsent⟩
  obtain ⟨raw', hleading', hpayload'⟩ := h.leading u hu
  rw [hgid] at hleading'
  obtain rfl := hleading.unique hleading'
  have huv : u = v := by
    cases u
    cases v
    simp_all
  exact huv ▸ hu

/-- What leads determines the view. -/
theorem IsLowest.unique {view view' : List (ViewRecord P)} (h : IsLowest said view)
    (h' : IsLowest said' view')
    (hleading : ∀ gid raw, Leading said' gid raw ↔ Leading said gid raw) : view' = view := by
  refine eq_of_ascending h.ascending h'.ascending fun v => ?_
  rw [h.mem_iff, h'.mem_iff]
  simp only [hleading]

/-! ## From contributions to views -/

theorem arrivals_eq (said : List (List RawRecord)) : arrivals P said =
    (said.zipIdx.map fun part => part.1.map (RawRecord.arrived P part.2)).flatten :=
  rfl

/-- What arrives from one rank is what the rank sent. -/
theorem filter_rank_arrivals (said : List (List RawRecord)) (rank : Nat) :
    (arrivals P said).filter (fun c => c.rank == rank) =
      (said[rank]?.getD []).map (RawRecord.arrived P rank) := by
  -- The rank of the first contribution is left open, since the induction leaves it behind.
  have hfrom : ∀ first rank, ((said.zipIdx first).map fun part =>
      part.1.map (RawRecord.arrived P part.2)).flatten.filter (fun c => c.rank == first + rank) =
        (said[rank]?.getD []).map (RawRecord.arrived P (first + rank)) := by
    induction said with
    | nil => simp
    | cons rs said ih =>
      intro first rank
      rw [List.zipIdx_cons, List.map_cons, List.flatten_cons, List.filter_append]
      cases rank with
      | zero =>
        have hlater : ((said.zipIdx (first + 1)).map fun part =>
            part.1.map (RawRecord.arrived P part.2)).flatten.filter (fun c => c.rank == first + 0) = [] := by
          rw [List.filter_eq_nil_iff]
          intro c hc
          obtain ⟨_, hpart, hc⟩ := List.mem_flatten.1 hc
          obtain ⟨⟨rs', rank⟩, hrank, rfl⟩ := List.mem_map.1 hpart
          obtain ⟨r, -, rfl⟩ := List.mem_map.1 hc
          have hle := (List.mem_zipIdx hrank).1
          simp only [RawRecord.arrived, beq_iff_eq]
          omega
        rw [hlater, List.append_nil]
        simp [List.filter_map, Function.comp_def, RawRecord.arrived]
      | succ rank =>
        have hrest := ih (first + 1) rank
        have hrank : first + 1 + rank = first + (rank + 1) := by omega
        rw [hrank] at hrest
        simp [hrest, List.filter_map, Function.comp_def, RawRecord.arrived]
  rw [arrivals_eq]
  simpa using hfrom 0 rank

theorem find?_arrivals {c : Contributed P}
    (h : (arrivals P said).find? (fun d => d.gid == gid && d.rank == c.rank) = some c) :
    ∃ rs, said[c.rank]? = some rs ∧ rs.find? (fun r => r.gid == gid) = some ⟨gid, c.raw⟩ := by
  have hfind : ((said[c.rank]?.getD []).map (RawRecord.arrived P c.rank)).find?
      (fun d => d.gid == gid) = some c := by
    rw [← filter_rank_arrivals, List.find?_filter, ← h]
    congr 1
    funext d
    rw [Bool.eq_iff_iff]
    simp [and_comm]
  rw [List.find?_map, Option.map_eq_some_iff] at hfind
  obtain ⟨⟨gid', raw⟩, hr, hc⟩ := hfind
  have hgid : gid' = gid := by simpa [RawRecord.arrived] using List.find?_some hr
  have hraw : raw = c.raw := congrArg Contributed.raw hc
  subst hgid hraw
  cases hrs : said[c.rank]? with
  | none => simp [hrs] at hr
  | some rs => exact ⟨rs, rfl, by simpa [hrs, RawRecord.arrived, Function.comp_def] using hr⟩

/-- Contributions that carry records have the canonical view of these. -/
theorem resolve_of_carries (policy : ConflictPolicy)
    (hsaid : List.Forall₂ (Contribution.Carries P) parts said)
    (hg : Gathered.ofContributions parts = .ok g) :
    resolve P policy g = canonicalize policy (arrivals P said) := by
  rw [resolve, decodeAll_of_carries hsaid hg]

theorem length_arrivals (said : List (List RawRecord)) :
    (arrivals P said).length = said.flatten.length := by
  have hlengths : (said.zipIdx.map fun part => part.1.map (RawRecord.arrived P part.2)).map
      List.length = (said.zipIdx.map Prod.fst).map List.length := by
    rw [List.map_map, List.map_map]
    exact List.map_congr_left fun part _ => List.length_map _
  rw [arrivals_eq, List.length_flatten, List.length_flatten, hlengths, List.zipIdx_map_fst]

/-- The first records in order are in view. -/
theorem isLowest_of_keeps {view : List (ViewRecord P)}
    (h : Keeps none (sorted (arrivals P said)) view) : IsLowest said view where
  ascending := h.ascending
  sent_iff := by
    intro gid
    rw [← sentIn_arrivals (P := P)]
    constructor
    · rintro ⟨v, hv, rfl⟩
      obtain ⟨c, hfind, -⟩ := h.leading v hv
      have hgid : c.gid = v.gid := by simpa using List.find?_some hfind
      exact ⟨c.rank, c.raw, c, mem_sorted.1 (List.mem_of_find?_eq_some hfind), rfl, hgid, rfl⟩
    · rintro ⟨rank, raw, c, hc, -, rfl, -⟩
      rcases h.complete c (mem_sorted.2 hc) with ⟨k, hk, -⟩ | hv
      · cases hk
      · exact hv
  leading := by
    intro v hv
    obtain ⟨c, hfind, hpayload⟩ := h.leading v hv
    obtain ⟨hfirst, hleast⟩ := find?_sorted hfind
    obtain ⟨rs, hrs, hr⟩ := find?_arrivals hfirst
    refine ⟨c.raw, ⟨c.rank, rs, hrs, hr, fun rank raw hsent => ?_⟩, ?_⟩
    · rw [← sentIn_arrivals (P := P)] at hsent
      obtain ⟨d, hd, rfl, hgid, -⟩ := hsent
      exact hleast d hd hgid
    · obtain ⟨rank, rs', r, -, -, rfl⟩ :=
        mem_arrivals.1 (mem_sorted.1 (List.mem_of_find?_eq_some hfind))
      exact hpayload.symm

/-- Letting the lowest rank win makes the view of what leads, and reports every record that it drops. -/
theorem resolve_lowest_cases (hsaid : List.Forall₂ (Contribution.Carries P) parts said)
    (hg : Gathered.ofContributions parts = .ok g) :
    ∃ view, (resolve P .lowestRankWins g).result = .ok view ∧ IsLowest said view ∧
      (∀ view', (resolve P .reject g).result = .ok view' → view' = view) ∧
      said.flatten.length = view.length +
        reportedDuplicates (resolve P .lowestRankWins g).events +
        (resolve P .lowestRankWins g).events.count .conflict := by
  obtain ⟨out, hout⟩ := exists_scan_lowest none (sorted (arrivals P said))
  have hresolve : resolve P .lowestRankWins g = ⟨.ok out.records, out.events⟩ := by
    rw [resolve_of_carries _ hsaid hg, canonicalize, hout]
  refine ⟨out.records, by rw [hresolve], ?_, fun view' hview' => ?_, ?_⟩
  · exact isLowest_of_keeps (scan_records (pairwise_sorted _) (by simp) hout)
  · rw [resolve_of_carries _ hsaid hg, canonicalize] at hview'
    split at hview'
    · rename_i out' hout'
      rw [scan_lowest_of_reject hout'] at hout
      cases hout
      cases hview'
      rfl
    · cases hview'
  · have hlength := length_eq_of_scan hout
    rw [(sorted_perm _).length_eq, length_arrivals] at hlength
    rw [hresolve, hlength, reportedDuplicates_events, count_conflict_events]

/-- Of contributions that carry records, letting the lowest rank win always makes a view. It holds every
element that was sent, by ascending number, with what the lowest rank that sent it said first. It is the
view that a rejecting policy makes, if that makes one. The order of the records within contributions
does not change it, as long as no rank contradicts itself. And every record is in view, or reported
as a duplicate or as a conflict. -/
theorem resolve_lowest_exact (hne : parts ≠ [])
    (hsaid : List.Forall₂ (Contribution.Carries P) parts said) :
    ∃ g view, Gathered.ofContributions parts = .ok g ∧
      (resolve P .lowestRankWins g).result = .ok view ∧
      IsLowest said view ∧
      (∀ view', (resolve P .reject g).result = .ok view' → view' = view) ∧
      (Steady said → ∀ parts' said' g', List.Forall₂ (Contribution.Carries P) parts' said' →
        Gathered.ofContributions parts' = .ok g' → List.Forall₂ List.Perm said said' →
        (resolve P .lowestRankWins g').result = .ok view) ∧
      said.flatten.length = view.length +
        reportedDuplicates (resolve P .lowestRankWins g).events +
        (resolve P .lowestRankWins g).events.count .conflict := by
  have hg := Gathered.ofContributions_eq_ok hne
  obtain ⟨view, hview, hlowest, hreject, hcount⟩ := resolve_lowest_cases hsaid hg
  refine ⟨_, view, hg, hview, hlowest, hreject, fun hsteady parts' said' g' hsaid' hg' hperm => ?_,
    hcount⟩
  obtain ⟨view', hview', hlowest', -⟩ := resolve_lowest_cases hsaid' hg'
  rw [hview', hlowest.unique hlowest' fun gid raw => hsteady.leading_of_perm_records hperm]

/-- Of three ranks the first says the same of the element `5` twice, the second has nothing to say, and
the third contradicts the first. -/
theorem resolve_lowest_exact_contested :
    let said : List (List RawRecord) :=
      [[⟨5, Bytes.ofNat 8 7⟩, ⟨2, Bytes.ofNat 8 1⟩, ⟨5, Bytes.ofNat 8 7⟩], [], [⟨5, Bytes.ofNat 8 8⟩]]
    let parts := said.map fun rs =>
      Contribution.header UInt64 rs.length ++ rs.flatMap RawRecord.bytes
    parts ≠ [] ∧ List.Forall₂ (Contribution.Carries UInt64) parts said ∧ Steady said ∧
      ¬ Unanimous (Sent said) ∧
      ∃ g view, Gathered.ofContributions parts = .ok g ∧
        (resolve UInt64 .lowestRankWins g).result = .ok view ∧
        (∃ v ∈ view, v.gid = 5) ∧ ∀ v ∈ view, v.gid = 5 → v.payload = 7 := by
  intro said parts
  have hne : parts ≠ [] := by simp [parts, said]
  have hcarries : ∀ rs ∈ said, Contribution.Carries UInt64
      (Contribution.header UInt64 rs.length ++ rs.flatMap RawRecord.bytes) rs := by
    intro rs hrs
    have hshort : ∀ rs ∈ said, rs.length < Word.halfModulus := by decide
    have hfits : ∀ rs ∈ said, ∀ r ∈ rs, r.gid ≠ Gid.reserved ∧ Word.Fits r.gid ∧
        r.raw.length = Payload.width UInt64 := by decide
    exact .records rs (by decide) (hshort rs hrs) fun r hr =>
      ⟨(hfits rs hrs r hr).1, (hfits rs hrs r hr).2.1, (hfits rs hrs r hr).2.2⟩
  have hsaid : List.Forall₂ (Contribution.Carries UInt64) parts said := by
    rw [List.forall₂_map_left_iff, List.forall₂_same]
    exact hcarries
  have hsteady : Steady said := by
    have hsame : ∀ rs ∈ said, ∀ r ∈ rs, ∀ r' ∈ rs, r.gid = r'.gid → r.raw = r'.raw := by decide
    rintro rank gid raw raw' ⟨rs, hrs, hr⟩ ⟨rs', hrs', hr'⟩
    rw [hrs] at hrs'
    cases hrs'
    exact hsame rs (List.mem_of_getElem? hrs) _ hr _ hr' rfl
  have hcontested : ¬ Unanimous (Sent said) := by
    intro hall
    have hsame := hall 5 0 2 (Bytes.ofNat 8 7) (Bytes.ofNat 8 8) ⟨_, rfl, by simp⟩ ⟨_, rfl, by simp⟩
    exact absurd hsame (by decide)
  have hseven : Leading said 5 (Bytes.ofNat 8 7) := ⟨0, _, rfl, rfl, fun _ _ _ => Nat.zero_le _⟩
  obtain ⟨g, view, hg, hview, hlowest, -⟩ := resolve_lowest_exact hne hsaid
  refine ⟨hne, hsaid, hsteady, hcontested, g, view, hg, hview, ?_, fun v hv hgid => ?_⟩
  · exact (hlowest.sent_iff 5).2 ⟨0, Bytes.ofNat 8 7, _, rfl, by simp⟩
  · obtain ⟨raw, hleading, hpayload⟩ := hlowest.leading v hv
    rw [hgid] at hleading
    obtain rfl := hseven.unique hleading
    rw [hpayload]
    decide

end ElementGrid.Canonical
