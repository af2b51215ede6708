import ElementGrid.View.Canonical
import ElementGrid.Proofs.Except
import Mathlib.Order.Bounds.Basic
/-!
# The scan of sorted records

The records of all ranks lie in order when the scan begins, so all records of one element stand
together, and the one of the lowest rank leads them. The scan compares every record with the leading
one of its element.

## Main definitions

* `Canonical.Before` — the order of the records
* `Canonical.Leads` — the record with which later ones of its element are compared
* `Canonical.Agreed` — no two records of one element differ
* `Canonical.Dissent` — the place at which a rejecting scan fails

## Main results

* `Canonical.scan_records` — what a scan keeps
* `Canonical.scan_reject` — when and where a rejecting scan fails
-/

namespace ElementGrid.Canonical

variable {P : Type}

/-- The record `a` may stand before the record `b`. -/
def Before (a b : Contributed P) : Prop := a.gid < b.gid ∨ a.gid = b.gid ∧ a.rank ≤ b.rank

theorem before_iff {a b : Contributed P} : before a b = true ↔ Before a b := by
  simp [before, Before]

theorem Before.gid_le {a b : Contributed P} (h : Before a b) : a.gid ≤ b.gid := by
  rcases h with h | ⟨h, -⟩ <;> omega

theorem Before.rank_le {a b : Contributed P} (h : Before a b) (hgid : a.gid = b.gid) :
    a.rank ≤ b.rank := by
  rcases h with h | ⟨-, h⟩
  · omega
  · exact h

theorem sorted_perm (records : List (Contributed P)) : (sorted records).Perm records :=
  List.mergeSort_perm records before

theorem mem_sorted {records : List (Contributed P)} {c : Contributed P} :
    c ∈ sorted records ↔ c ∈ records :=
  (sorted_perm records).mem_iff

theorem before_trans (a b c : Contributed P) (hab : before a b = true) (hbc : before b c = true) :
    before a c = true := by
  rw [before_iff] at *
  unfold Before at *
  omega

theorem before_total (a b : Contributed P) : (before a b || before b a) = true := by
  rw [Bool.or_eq_true, before_iff, before_iff]
  unfold Before
  omega

theorem pairwise_sorted (records : List (Contributed P)) : (sorted records).Pairwise Before :=
  (List.pairwise_mergeSort before_trans before_total records).imp before_iff.1

/-! ## One record of a scan -/

section Steps

variable (policy : ConflictPolicy) {kept : Option (Contributed P)} {k r : Contributed P}
  (rest : List (Contributed P))

/-- A record of another element than the leading one is kept and leads from then on. -/
theorem scan_new (h : ∀ k ∈ kept, k.gid ≠ r.gid) :
    scan policy kept (r :: rest) = (scan policy (some r) rest).map fun out =>
      { out with records := ⟨r.gid, r.payload⟩ :: out.records } := by
  have hfilter : kept.filter (fun k => k.gid == r.gid) = none := by
    rw [Option.filter_eq_none_iff]
    intro k hk
    simpa using h k hk
  rw [scan, hfilter]
  cases scan policy (some r) rest <;> rfl

/-- A record that says what the leading one says is dropped. -/
theorem scan_same (hgid : k.gid = r.gid) (hraw : k.raw = r.raw) :
    scan policy (some k) (r :: rest) = (scan policy (some k) rest).map fun out =>
      { out with duplicates := out.duplicates + 1 } := by
  rw [scan]
  simp only [Option.filter, hgid, beq_self_eq_true, if_true, hraw]
  cases scan policy (some k) rest <;> rfl

/-- A record that says something else ends a rejecting scan. -/
theorem scan_differs_reject (hgid : k.gid = r.gid) (hraw : k.raw ≠ r.raw) :
    scan .reject (some k) (r :: rest) = .error (.conflict r.gid k.rank r.rank) := by
  rw [scan]
  simp [Option.filter, hgid, hraw]

/-- A record that says something else is dropped if the lowest rank wins. -/
theorem scan_differs_lowest (hgid : k.gid = r.gid) (hraw : k.raw ≠ r.raw) :
    scan .lowestRankWins (some k) (r :: rest) =
      (scan .lowestRankWins (some k) rest).map fun out =>
        { out with conflicts := out.conflicts + 1 } := by
  rw [scan]
  simp only [Option.filter, hgid, beq_self_eq_true, if_true, hraw, if_false]
  cases scan .lowestRankWins (some k) rest <;> rfl

end Steps

/-! ## What a scan keeps -/

/-- What a scan that has `kept` as its leading record makes of the records `l`. -/
structure Keeps (kept : Option (Contributed P)) (l : List (Contributed P))
    (view : List (ViewRecord P)) : Prop where
  ascending : view.Pairwise fun u v => u.gid < v.gid
  behind : ∀ v ∈ view, ∀ k ∈ kept, k.gid < v.gid
  /-- What is kept of an element is its first record. -/
  leading : ∀ v ∈ view, ∃ c, l.find? (fun c => c.gid == v.gid) = some c ∧ c.payload = v.payload
  complete : ∀ c ∈ l, (∃ k ∈ kept, k.gid = c.gid) ∨ ∃ v ∈ view, v.gid = c.gid

variable {kept : Option (Contributed P)} {k r : Contributed P} {rest : List (Contributed P)}
  {view : List (ViewRecord P)}

theorem find?_cons_of_gid_ne {gid : Nat} (h : r.gid ≠ gid) :
    (r :: rest).find? (fun c => c.gid == gid) = rest.find? fun c => c.gid == gid := by
  rw [List.find?_cons, beq_eq_false_iff_ne.2 h]

theorem Keeps.nil : Keeps kept [] ([] : List (ViewRecord P)) :=
  ⟨.nil, by simp, by simp, by simp⟩

theorem Keeps.new (h : Keeps (some r) rest view) (hlt : ∀ k ∈ kept, k.gid < r.gid) :
    Keeps kept (r :: rest) (⟨r.gid, r.payload⟩ :: view) where
  ascending := List.pairwise_cons.2 ⟨fun v hv => h.behind v hv r rfl, h.ascending⟩
  behind := by
    intro v hv k hk
    rcases List.mem_cons.1 hv with rfl | hv
    · exact hlt k hk
    · exact Nat.lt_trans (hlt k hk) (h.behind v hv r rfl)
  leading := by
    intro v hv
    rcases List.mem_cons.1 hv with rfl | hv
    · exact ⟨r, by simp, rfl⟩
    · obtain ⟨c, hc, hpayload⟩ := h.leading v hv
      have hlt := h.behind v hv r rfl
      exact ⟨c, (find?_cons_of_gid_ne hlt.ne).trans hc, hpayload⟩
  complete := by
    intro c hc
    rcases List.mem_cons.1 hc with rfl | hc
    · exact .inr ⟨_, List.mem_cons_self, rfl⟩
    · rcases h.complete c hc with ⟨k, hk, hgid⟩ | ⟨v, hv, hgid⟩
      · cases hk
        exact .inr ⟨_, List.mem_cons_self, hgid⟩
      · exact .inr ⟨v, List.mem_cons_of_mem _ hv, hgid⟩

theorem Keeps.dropped (h : Keeps (some k) rest view) (hgid : k.gid = r.gid) :
    Keeps (some k) (r :: rest) view where
  ascending := h.ascending
  behind := h.behind
  leading := by
    intro v hv
    obtain ⟨c, hc, hpayload⟩ := h.leading v hv
    have hlt := h.behind v hv k rfl
    exact ⟨c, (find?_cons_of_gid_ne (hgid ▸ hlt.ne)).trans hc, hpayload⟩
  complete := by
    intro c hc
    rcases List.mem_cons.1 hc with rfl | hc
    · exact .inl ⟨k, rfl, hgid⟩
    · exact h.complete c hc

/-- A scan of records in order keeps the first record of each element. -/
theorem scan_records {policy : ConflictPolicy} {l : List (Contributed P)} {out : Kept P}
    (hl : l.Pairwise Before) (hkept : ∀ k ∈ kept, ∀ c ∈ l, k.gid ≤ c.gid)
    (h : scan policy kept l = .ok out) : Keeps kept l out.records := by
  induction l generalizing kept out with
  | nil =>
    cases h
    exact .nil
  | cons r rest ih =>
    obtain ⟨hr, hrest⟩ := List.pairwise_cons.1 hl
    have hr' : ∀ k ∈ some r, ∀ c ∈ rest, k.gid ≤ c.gid := by
      rintro k hk c hc
      cases hk
      exact (hr c hc).gid_le
    -- The record belongs to the leading element, or it begins a new one.
    by_cases hsame : ∃ k ∈ kept, k.gid = r.gid
    · obtain ⟨k, hk, hgid⟩ := hsame
      cases hk
      have hk' : ∀ k' ∈ some k, ∀ c ∈ rest, k'.gid ≤ c.gid :=
        fun k' hk' c hc => hkept k' hk' c (List.mem_cons_of_mem _ hc)
      by_cases hraw : k.raw = r.raw
      · rw [scan_same policy rest hgid hraw, Except.map_eq_ok_iff] at h
        obtain ⟨out', h', rfl⟩ := h
        exact (ih hrest hk' h').dropped hgid
      · cases policy with
        | reject =>
          rw [scan_differs_reject rest hgid hraw] at h
          cases h
        | lowestRankWins =>
          rw [scan_differs_lowest rest hgid hraw, Except.map_eq_ok_iff] at h
          obtain ⟨out', h', rfl⟩ := h
          exact (ih hrest hk' h').dropped hgid
    · have hnew : ∀ k ∈ kept, k.gid ≠ r.gid := fun k hk hgid => hsame ⟨k, hk, hgid⟩
      rw [scan_new policy rest hnew, Except.map_eq_ok_iff] at h
      obtain ⟨out', h', rfl⟩ := h
      exact (ih hrest hr' h').new fun k hk =>
        lt_of_le_of_ne (hkept k hk r List.mem_cons_self) (hnew k hk)

/-! ## When a rejecting scan fails -/

/-- No two records of one element differ. -/
def Agreed (l : List (Contributed P)) : Prop := ∀ a ∈ l, ∀ b ∈ l, a.gid = b.gid → a.raw = b.raw

/-- The record `k` leads the last element among the records `seen`. -/
structure Leads (seen : List (Contributed P)) (k : Contributed P) : Prop where
  mem : k ∈ seen
  gid_le : ∀ a ∈ seen, a.gid ≤ k.gid
  rank_le : ∀ a ∈ seen, a.gid = k.gid → k.rank ≤ a.rank

/-- The record `r` is the first among the records `l` that differs from the one that leads its
element, which is `k`. -/
structure Dissent (l : List (Contributed P)) (k r : Contributed P) : Prop where
  gid_eq : k.gid = r.gid
  raw_ne : k.raw ≠ r.raw
  /-- All records before `r` agree, and `k` leads them. -/
  split : ∃ seen rest, l = seen ++ r :: rest ∧ Agreed seen ∧ Leads seen k

theorem Agreed.append_new {seen : List (Contributed P)} (h : Agreed seen)
    (hnew : ∀ a ∈ seen, a.gid < r.gid) : Agreed (seen ++ [r]) := by
  intro a ha b hb hgid
  rw [List.mem_append, List.mem_singleton] at ha hb
  rcases ha with ha | rfl <;> rcases hb with hb | rfl
  · exact h a ha b hb hgid
  · have := hnew a ha
    omega
  · have := hnew b hb
    omega
  · rfl

theorem Agreed.append_same {seen : List (Contributed P)} (h : Agreed seen) (hk : k ∈ seen)
    (hgid : k.gid = r.gid) (hraw : k.raw = r.raw) : Agreed (seen ++ [r]) := by
  intro a ha b hb hab
  rw [List.mem_append, List.mem_singleton] at ha hb
  rcases ha with ha | rfl <;> rcases hb with hb | rfl
  · exact h a ha b hb hab
  · exact (h a ha k hk (hab.trans hgid.symm)).trans hraw
  · exact hraw.symm.trans (h k hk b hb (hgid.trans hab))
  · rfl

theorem Leads.append_new {seen : List (Contributed P)} (hnew : ∀ a ∈ seen, a.gid < r.gid) :
    Leads (seen ++ [r]) r where
  mem := by simp
  gid_le := by
    intro a ha
    rw [List.mem_append, List.mem_singleton] at ha
    rcases ha with ha | rfl
    · exact (hnew a ha).le
    · exact le_rfl
  rank_le := by
    intro a ha hgid
    rw [List.mem_append, List.mem_singleton] at ha
    rcases ha with ha | rfl
    · have := hnew a ha
      omega
    · exact le_rfl

theorem Leads.append_same {seen : List (Contributed P)} (h : Leads seen k) (hgid : k.gid = r.gid)
    (hrank : k.rank ≤ r.rank) : Leads (seen ++ [r]) k where
  mem := List.mem_append_left _ h.mem
  gid_le := by
    intro a ha
    rw [List.mem_append, List.mem_singleton] at ha
    rcases ha with ha | rfl
    · exact h.gid_le a ha
    · exact hgid.ge
  rank_le := by
    intro a ha hgid
    rw [List.mem_append, List.mem_singleton] at ha
    rcases ha with ha | rfl
    · exact h.rank_le a ha hgid
    · exact hrank

/-- The leading record of a scan leads what the scan has seen. -/
def LeadsIf (seen : List (Contributed P)) : Option (Contributed P) → Prop
  | none => seen = []
  | some k => Leads seen k

/-- A rejecting scan succeeds if all records agree, and otherwise fails at the first that dissents. -/
theorem scan_reject {seen l : List (Contributed P)} (hl : (seen ++ l).Pairwise Before)
    (hseen : Agreed seen) (hkept : LeadsIf seen kept) :
    (∃ out, scan .reject kept l = .ok out ∧ Agreed (seen ++ l)) ∨
      ∃ k r, scan .reject kept l = .error (.conflict r.gid k.rank r.rank) ∧
        Dissent (seen ++ l) k r := by
  -- The scan goes through `l`; what it leaves behind is added to `seen`.
  induction l generalizing seen kept with
  | nil => exact .inl ⟨{}, rfl, by rwa [List.append_nil]⟩
  | cons r rest ih =>
    have happend : seen ++ r :: rest = (seen ++ [r]) ++ rest := by simp
    have hbefore : ∀ a ∈ seen, Before a r := fun a ha =>
      (List.pairwise_append.1 hl).2.2 a ha r List.mem_cons_self
    by_cases hsame : ∃ k ∈ kept, k.gid = r.gid
    · obtain ⟨k, hk, hgid⟩ := hsame
      cases hk
      by_cases hraw : k.raw = r.raw
      · rw [happend] at hl ⊢
        rw [scan_same .reject rest hgid hraw]
        have hrank : k.rank ≤ r.rank := (hbefore k hkept.mem).rank_le hgid
        have hleads : LeadsIf (seen ++ [r]) (some k) := hkept.append_same hgid hrank
        rcases ih hl (hseen.append_same hkept.mem hgid hraw) hleads with
          ⟨out, hout, hagreed⟩ | ⟨k', r', herror, hdissent⟩
        · exact .inl ⟨_, Except.map_eq_ok_iff.2 ⟨out, hout, rfl⟩, hagreed⟩
        · exact .inr ⟨k', r', Except.map_eq_error_iff.2 herror, hdissent⟩
      · exact .inr ⟨k, r, scan_differs_reject rest hgid hraw,
          ⟨hgid, hraw, seen, rest, rfl, hseen, hkept⟩⟩
    · have hne : ∀ k ∈ kept, k.gid ≠ r.gid := fun k hk hgid => hsame ⟨k, hk, hgid⟩
      have hnew : ∀ a ∈ seen, a.gid < r.gid := by
        intro a ha
        cases kept with
        | none =>
          rw [hkept] at ha
          cases ha
        | some k =>
          have hk : k.gid < r.gid :=
            lt_of_le_of_ne (hbefore k hkept.mem).gid_le (hne k rfl)
          exact (hkept.gid_le a ha).trans_lt hk
      rw [happend] at hl ⊢
      rw [scan_new .reject rest hne]
      have hleads : LeadsIf (seen ++ [r]) (some r) := Leads.append_new hnew
      rcases ih hl (hseen.append_new hnew) hleads with
        ⟨out, hout, hagreed⟩ | ⟨k', r', herror, hdissent⟩
      · exact .inl ⟨_, Except.map_eq_ok_iff.2 ⟨out, hout, rfl⟩, hagreed⟩
      · exact .inr ⟨k', r', Except.map_eq_error_iff.2 herror, hdissent⟩

end ElementGrid.Canonical
