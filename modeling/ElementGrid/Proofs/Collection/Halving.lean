import ElementGrid.Collection.Build
/-!
# Searching runs by halving

Runs that stand in order end in order, so those that end before a number are followed by all others. The
place where the two parts meet is found by halving, and it is where a walk from the front stops.

## Main definitions

* `Run.bisect` — the place of a number among runs, found by halving

## Main results

* `Run.getElem?_bisect` — halving finds the run that a walk from the front finds
-/

namespace ElementGrid.Run

/-- The place of the first run that does not end before a number, found by halving the places from `lo` up
to `hi`. -/
def bisect (runs : List Run) (gid lo hi : Nat) : Nat :=
  if _hlt : lo < hi then
    match runs[(lo + hi) / 2]? with
    | some b =>
      if b.last < gid then bisect runs gid ((lo + hi) / 2 + 1) hi
      else bisect runs gid lo ((lo + hi) / 2)
    | none => lo
  else lo
termination_by hi - lo

variable {runs : List Run} {gid : Nat}

/-- A walk from the front stops at the place that parts the runs that end before the number from the
others. -/
theorem find?_of_parted {i : Nat} (hbefore : ∀ j b, j < i → runs[j]? = some b → b.last < gid)
    (hbehind : ∀ j b, i ≤ j → runs[j]? = some b → gid ≤ b.last) :
    runs.find? (fun b => gid ≤ b.last) = runs[i]? := by
  induction runs generalizing i with
  | nil => rfl
  | cons c cs ih =>
    cases i with
    | zero =>
      have hc := hbehind 0 c (Nat.le_refl 0) rfl
      simp [hc]
    | succ i =>
      have hc := hbefore 0 c (Nat.succ_pos i) rfl
      have hrest := ih (fun j b hj hb => hbefore (j + 1) b (Nat.succ_lt_succ hj) hb)
        fun j b hj hb => hbehind (j + 1) b (Nat.succ_le_succ hj) hb
      simp [hc, hrest]

/-- Runs that hold numbers and are in order and apart end in order. -/
theorem last_lt_last (hnonvoid : Collection.Nonvoid runs)
    (hapart : runs.Pairwise fun b c => b.last < c.first) {i j : Nat} {b c : Run} (hij : i < j)
    (hb : runs[i]? = some b) (hc : runs[j]? = some c) : b.last < c.last := by
  obtain ⟨hi, rfl⟩ := List.getElem?_eq_some_iff.1 hb
  obtain ⟨hj, rfl⟩ := List.getElem?_eq_some_iff.1 hc
  exact Nat.lt_of_lt_of_le (List.pairwise_iff_getElem.1 hapart i j hi hj hij)
    (hnonvoid _ (List.getElem_mem hj))

/-- Halving finds the run that a walk from the front finds. -/
theorem getElem?_bisect (hnonvoid : Collection.Nonvoid runs)
    (hapart : runs.Pairwise fun b c => b.last < c.first) (gid : Nat) :
    runs[bisect runs gid 0 runs.length]? = runs.find? fun b => gid ≤ b.last := by
  have hends := @last_lt_last runs hnonvoid hapart
  -- All runs before `lo` end before the number, and none from `hi` on does.
  have hloop : ∀ lo hi, lo ≤ hi → hi ≤ runs.length →
      (∀ j b, j < lo → runs[j]? = some b → b.last < gid) →
      (∀ j b, hi ≤ j → runs[j]? = some b → gid ≤ b.last) →
      runs[bisect runs gid lo hi]? = runs.find? fun b => gid ≤ b.last := by
    intro lo hi hle hlength hbefore hbehind
    induction lo, hi using bisect.induct runs gid with
    | case1 lo hi hlt b hb hbelow ih =>
      rw [bisect, dif_pos hlt]
      simp only [hb, if_pos hbelow]
      refine ih (by omega) hlength (fun j c hj hc => ?_) hbehind
      rcases Nat.lt_or_ge j ((lo + hi) / 2) with hj' | hj'
      · exact Nat.lt_trans (hends hj' hc hb) hbelow
      · obtain rfl : j = (lo + hi) / 2 := by omega
        cases hc.symm.trans hb
        exact hbelow
    | case2 lo hi hlt b hb hreaches ih =>
      rw [bisect, dif_pos hlt]
      simp only [hb, if_neg hreaches]
      refine ih (by omega) (by omega) hbefore fun j c hj hc => ?_
      rcases Nat.lt_or_ge ((lo + hi) / 2) j with hj' | hj'
      · have := hends hj' hb hc
        omega
      · obtain rfl : j = (lo + hi) / 2 := by omega
        cases hc.symm.trans hb
        exact Nat.le_of_not_lt hreaches
    | case3 lo hi hlt hnone =>
      have := List.getElem?_eq_none_iff.1 hnone
      omega
    | case4 lo hi hlt =>
      obtain rfl : lo = hi := by omega
      rw [bisect, dif_neg hlt]
      exact (find?_of_parted hbefore hbehind).symm
  refine hloop 0 runs.length (Nat.zero_le _) (Nat.le_refl _) (fun j b hj => ?_) fun j b hj hb => ?_
  · omega
  · rw [List.getElem?_eq_none hj] at hb
    cases hb

end ElementGrid.Run
