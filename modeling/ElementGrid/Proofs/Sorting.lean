/-!
# Stable sorting

Sorting keeps the order of what may stand in any order, so that what is alike stays as it came. A list in
order of its keys is therefore known by what it holds for each key.

## Main results

* `pairwise_mergeSort_key` — sorting by a key puts the keys in order
* `filter_mergeSort` — what may stand in any order keeps its order
* `eq_of_filter_key` — lists in order are equal if they hold the same for each key
-/

namespace ElementGrid

variable {α : Type}

/-- The items that a list is filtered for keep their order if any two of them may stand in either order. -/
theorem filter_mergeSort {le : α → α → Bool} (htrans : ∀ a b c, le a b = true → le b c = true → le a c = true)
    (htotal : ∀ a b, (le a b || le b a) = true) {p : α → Bool} (l : List α)
    (hp : ∀ a b, p a = true → p b = true → le a b = true) : (l.mergeSort le).filter p = l.filter p := by
  have hsorted : (l.filter p).Pairwise fun a b => le a b = true := by
    refine List.pairwise_of_forall_mem_list ?_
    intro a ha b hb
    exact hp a b (List.mem_filter.1 ha).2 (List.mem_filter.1 hb).2
  -- They stay in their order, and there are as many as before.
  have hsub := (List.sublist_mergeSort htrans htotal hsorted List.filter_sublist).filter p
  rw [List.filter_filter] at hsub
  simp only [Bool.and_self] at hsub
  exact (hsub.eq_of_length ((List.mergeSort_perm l le).filter p).length_eq.symm).symm

section Key

variable {key : α → Nat} {l l' : List α}

theorem le_key_trans (a b c : α) (hab : decide (key a ≤ key b) = true)
    (hbc : decide (key b ≤ key c) = true) : decide (key a ≤ key c) = true := by
  simp only [decide_eq_true_eq] at *
  omega

theorem le_key_total (a b : α) : (decide (key a ≤ key b) || decide (key b ≤ key a)) = true := by
  simp only [Bool.or_eq_true, decide_eq_true_eq]
  omega

theorem pairwise_mergeSort_key (key : α → Nat) (l : List α) :
    (l.mergeSort fun a b => key a ≤ key b).Pairwise fun a b => key a ≤ key b :=
  (List.pairwise_mergeSort le_key_trans le_key_total l).imp of_decide_eq_true

theorem filter_mergeSort_key (key : α → Nat) (l : List α) (k : Nat) :
    (l.mergeSort fun a b => key a ≤ key b).filter (key · == k) = l.filter (key · == k) := by
  refine filter_mergeSort le_key_trans le_key_total l fun a b ha hb => ?_
  simp only [beq_iff_eq, decide_eq_true_eq] at *
  omega

theorem mem_iff_of_filter_key (h : ∀ k, l.filter (key · == k) = l'.filter (key · == k)) (a : α) :
    a ∈ l ↔ a ∈ l' := by
  have hiff := congrArg (a ∈ ·) (h (key a))
  simpa using hiff

theorem key_le_of_mem {b : α} {t : List α} (h : (b :: t).Pairwise fun a b => key a ≤ key b) {a : α}
    (ha : a ∈ b :: t) : key b ≤ key a := by
  rcases List.mem_cons.1 ha with rfl | ha
  · exact Nat.le_refl _
  · exact (List.pairwise_cons.1 h).1 a ha

/-- A list in order of its keys is determined by what it holds for each key, in its order. -/
theorem eq_of_filter_key (h : l.Pairwise fun a b => key a ≤ key b)
    (h' : l'.Pairwise fun a b => key a ≤ key b)
    (hfilter : ∀ k, l.filter (key · == k) = l'.filter (key · == k)) : l = l' := by
  have hmem := mem_iff_of_filter_key hfilter
  induction l generalizing l' with
  | nil =>
    cases l' with
    | nil => rfl
    | cons b t' => exact absurd ((hmem b).2 List.mem_cons_self) List.not_mem_nil
  | cons a t ih =>
    cases l' with
    | nil => exact absurd ((hmem a).1 List.mem_cons_self) List.not_mem_nil
    | cons b t' =>
      -- Each of the two first items stands in the other list, so they have one key.
      have hkey : key a = key b := Nat.le_antisymm (key_le_of_mem h ((hmem b).2 List.mem_cons_self))
        (key_le_of_mem h' ((hmem a).1 List.mem_cons_self))
      have hhead := hfilter (key a)
      rw [List.filter_cons_of_pos (by simp), List.filter_cons_of_pos (by simp [hkey])] at hhead
      obtain ⟨rfl, -⟩ := List.cons.inj hhead
      have hrest : ∀ k, t.filter (key · == k) = t'.filter (key · == k) := by
        intro k
        have hk := hfilter k
        rw [List.filter_cons, List.filter_cons] at hk
        split at hk
        · exact (List.cons.inj hk).2
        · exact hk
      rw [ih (List.pairwise_cons.1 h).2 (List.pairwise_cons.1 h').2 hrest (mem_iff_of_filter_key hrest)]

end Key

end ElementGrid
