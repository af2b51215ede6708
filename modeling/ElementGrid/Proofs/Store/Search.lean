import Mathlib.Data.List.Basic
import Mathlib.Logic.Function.Iterate
import ElementGrid.Element.Probe
import ElementGrid.Proofs.Store
/-!
# Searches look by look

A search begins at a guessed place. It goes down as long as the numbers there are too great and then up as
long as they are too small, and nothing but these numbers keeps it inside of the store. A guess may be wrong
by any amount in either direction: the search is over after so many looks as there are places to pass twice,
and it comes to what a look-up comes to.

## Main definitions

* `Search` — where a search for a number stands
* `Store.look` — the next look of a search at the store
* `Store.search` — a search from a guessed place, after so many looks
* `Store.OnWay` — the search is inside of the store and has not gone past the number

## Main results

* `Store.onWay_look`, `Store.looksLeft_look` — what one look keeps, and what it brings nearer
* `Store.search_eq_ended` — what every search comes to
* `Store.lookup_exact` — the place of a number, the instance that is found and the one that is changed
-/

namespace ElementGrid

/-- Where a search for a number stands. -/
inductive Search where
  /-- On its way down. -/
  | down (place : Nat)
  /-- On its way up. -/
  | up (place : Nat)
  /-- At its end, with the place that it has found. -/
  | ended (found : Option Nat)
  /-- Outside of the store. -/
  | lost
  deriving DecidableEq, Repr

/-- One place further down; there is none below the first. -/
def Search.below : Nat → Search
  | 0 => .lost
  | i + 1 => .down i

namespace Store

variable {E : Type} (s : Store E)

/-- The next look of a search at the store. Whoever looks at a place that does not exist is lost. -/
def look (gid : Nat) : Search → Search
  | .down i =>
    match s.gidAt? i with
    | some g => if gid < g then .below i else .up i
    | none => .lost
  | .up i =>
    match s.gidAt? i with
    | some g => if g < gid then .up (i + 1) else .ended (if g = gid then some i else none)
    | none => .lost
  | .ended found => .ended found
  | .lost => .lost

/-- The search for a number from a guessed place, after so many looks. What is less than the first number
or greater than the last one is not searched for, and a guess beyond the last place is cut down to it. -/
def search (gid guess looks : Nat) : Search :=
  match s.nodes.head?, s.nodes.getLast? with
  | some a, some b =>
    if gid < a.gid ∨ b.gid < gid then .ended none
    else (s.look gid)^[looks] (.down (min guess (s.size - 1)))
  | _, _ => .ended none

/-- The search is inside of the store. On its way up it has not gone past the place of the number, and at
its end it knows that place. -/
def OnWay (gid : Nat) : Search → Prop
  | .down i => i < s.size
  | .up i => i < s.size ∧ ∀ j, s.gidAt? j = some gid → i ≤ j
  | .ended found => found = s.index? gid
  | .lost => False

/-- A bound of the looks that are left: every place is passed once on the way down and once on the way up. -/
def looksLeft : Search → Nat
  | .down i => i + 1 + s.size
  | .up i => s.size - i
  | .ended _ => 0
  | .lost => 0

variable {s} {gid : Nat}

theorem exists_gidAt? {i : Nat} (h : i < s.size) : ∃ g, s.gidAt? i = some g := by
  rw [gidAt?_eq]
  exact ⟨_, List.getElem?_eq_getElem (by rwa [length_gids])⟩

theorem looksLeft_look (p : Search) : s.looksLeft (s.look gid p) ≤ s.looksLeft p - 1 := by
  cases p with
  | down i =>
    rw [look]
    split
    · split
      · cases i with
        | zero => exact Nat.zero_le _
        | succ i => simp only [Search.below, looksLeft]; omega
      · simp only [looksLeft]; omega
    · exact Nat.zero_le _
  | up i =>
    rw [look]
    split
    · split
      · simp only [looksLeft]; omega
      · exact Nat.zero_le _
    · exact Nat.zero_le _
  | ended found => exact Nat.le_refl 0
  | lost => exact Nat.le_refl 0

theorem looksLeft_iterate (p : Search) (looks : Nat) :
    s.looksLeft ((s.look gid)^[looks] p) ≤ s.looksLeft p - looks := by
  induction looks with
  | zero => exact Nat.le_refl _
  | succ looks ih =>
    have hlook : s.looksLeft (s.look gid ((s.look gid)^[looks] p)) ≤ _ := looksLeft_look _
    rw [Function.iterate_succ_apply']
    omega

/-- A search with no looks left is at its end, and knows the place of the number. -/
theorem OnWay.eq_ended {p : Search} (h : s.OnWay gid p) (hleft : s.looksLeft p = 0) :
    p = .ended (s.index? gid) := by
  cases p with
  | down i => simp [looksLeft] at hleft
  | up i =>
    have hlt : i < s.size := h.1
    simp only [looksLeft] at hleft
    omega
  | ended found => exact congrArg Search.ended h
  | lost => exact h.elim

section Ascending

variable (hs : s.gids.Pairwise (· < ·))
include hs

/-- A number that lies between the first and the last one keeps a search for it inside of the store. -/
theorem onWay_look (hfirst : ∀ g, s.gidAt? 0 = some g → g ≤ gid)
    (hlast : ∀ g, s.gidAt? (s.size - 1) = some g → gid ≤ g) {p : Search} (h : s.OnWay gid p) :
    s.OnWay gid (s.look gid p) := by
  cases p with
  | down i =>
    have hlt : i < s.size := h
    obtain ⟨g, hg⟩ := exists_gidAt? hlt
    simp only [look, hg]
    split
    · rename_i hless
      cases i with
      | zero => exact absurd hless (Nat.not_lt.2 (hfirst g hg))
      | succ i => exact Nat.lt_of_succ_lt hlt
    · rename_i hstop
      -- The number here is no greater than the one that is searched for, whose place is not below.
      exact ⟨hlt, fun j hj => Nat.not_lt.1 fun hji => hstop (gid_lt_of_lt hs hj hg hji)⟩
  | up i =>
    obtain ⟨hlt, hpast⟩ : i < s.size ∧ ∀ j, s.gidAt? j = some gid → i ≤ j := h
    obtain ⟨g, hg⟩ := exists_gidAt? hlt
    simp only [look, hg]
    split
    · rename_i hless
      refine ⟨?_, fun j hj => Nat.lt_of_le_of_ne (hpast j hj) ?_⟩
      · by_contra hend
        have hi : i = s.size - 1 := by omega
        exact absurd hless (Nat.not_lt.2 (hlast g (hi ▸ hg)))
      · rintro rfl
        rw [hg, Option.some.injEq] at hj
        exact Nat.ne_of_lt hless hj
    · rename_i hstop
      split
      · rename_i heq
        subst heq
        exact ((index?_eq_some_iff hs).2 hg).symm
      · rename_i hne
        -- A place of the number would have to be here or further up, where the numbers are greater.
        show none = s.index? gid
        cases hfound : s.index? gid with
        | none => rfl
        | some j =>
          have hj := gidAt?_of_index? hfound
          have hle := gid_le_of_le hs hg hj (hpast j hj)
          omega
  | ended found => exact h
  | lost => exact h

theorem onWay_iterate (hfirst : ∀ g, s.gidAt? 0 = some g → g ≤ gid)
    (hlast : ∀ g, s.gidAt? (s.size - 1) = some g → gid ≤ g) {p : Search} (h : s.OnWay gid p)
    (looks : Nat) : s.OnWay gid ((s.look gid)^[looks] p) := by
  induction looks with
  | zero => exact h
  | succ looks ih =>
    rw [Function.iterate_succ_apply']
    exact onWay_look hs hfirst hlast ih

/-- A search is over at once, and rightly so, or it is on its way from its guess. -/
theorem search_cases (gid guess : Nat) :
    (s.index? gid = none ∧ ∀ looks, s.search gid guess looks = .ended none) ∨
    (0 < s.size ∧ ∀ looks, s.OnWay gid (s.search gid guess looks) ∧
      s.looksLeft (s.search gid guess looks) ≤ 2 * s.size - looks) := by
  cases hnodes : s.nodes with
  | nil => exact .inl ⟨by rw [index?, hnodes]; rfl, fun looks => by rw [search, hnodes]; rfl⟩
  | cons a rest =>
    have hne : s.nodes ≠ [] := by simp [hnodes]
    have hhead : s.nodes.head? = some a := by rw [hnodes]; rfl
    have hend : s.nodes.getLast? = some (s.nodes.getLast hne) := List.getLast?_eq_some_getLast hne
    have hpos : 0 < s.size := List.length_pos_iff.2 hne
    simp only [search, index?, hhead, hend]
    split
    · exact .inl ⟨rfl, fun _ => rfl⟩
    · rename_i hbetween
      refine .inr ⟨hpos, fun looks => ⟨onWay_iterate hs ?first ?last ?start looks, ?left⟩⟩
      case first =>
        intro g hg
        rw [gidAt?, ← List.head?_eq_getElem?, hhead] at hg
        cases hg
        omega
      case last =>
        intro g hg
        rw [gidAt?, size, ← List.getLast?_eq_getElem?, hend] at hg
        cases hg
        omega
      case start =>
        show min guess (s.size - 1) < s.size
        omega
      case left =>
        refine Nat.le_trans (looksLeft_iterate _ looks) ?_
        simp only [looksLeft]
        omega

/-- Every search ends inside of the store and comes to what a look-up comes to. -/
theorem search_eq_ended (gid guess : Nat) {looks : Nat} (hlooks : 2 * s.size ≤ looks) :
    s.search gid guess looks = .ended (s.index? gid) := by
  rcases search_cases hs gid guess with ⟨hnone, hended⟩ | ⟨-, hway⟩
  · rw [hnone, hended]
  · obtain ⟨honway, hleft⟩ := hway looks
    exact honway.eq_ended (by omega)

theorem search_ne_lost (gid guess looks : Nat) : s.search gid guess looks ≠ .lost := by
  rcases search_cases hs gid guess with ⟨-, hended⟩ | ⟨-, hway⟩
  · simp [hended]
  · intro hlost
    have honway := (hway looks).1
    rw [hlost] at honway
    exact honway

/-- In a store whose numbers ascend, by whatever strides: a number that is stored has one place, where it is
found and where it is changed; one that is not stored is not found, and nothing is changed for it. From
whatever guess, the search never leaves the store and ends with that place after two looks for each
instance, and it makes no difference where in the store it begins. -/
theorem lookup_exact (gid : Nat) :
    (∀ n, s.find? gid = some n ↔ n ∈ s.nodes ∧ n.gid = gid) ∧
    (∀ (i : Nat) (n : Node E), s.nodes[i]? = some n → n.gid = gid →
      s.index? gid = some i ∧ s.find? gid = some n ∧
        ∀ f, s.modify gid f = { s with nodes := s.nodes.set i (f n) }) ∧
    (gid ∉ s.gids → s.index? gid = none ∧ s.find? gid = none ∧ ∀ f, s.modify gid f = s) ∧
    (∀ guess, (∀ looks, s.search gid guess looks ≠ .lost) ∧
      ∀ looks, 2 * s.size ≤ looks → s.search gid guess looks = .ended (s.index? gid)) ∧
    ∀ start < s.size, s.indexFrom? start gid = s.index? gid := by
  refine ⟨fun n => find?_eq_some_iff hs, fun i n hn hgid => ?stored, fun hgid => ?missing,
    fun guess => ⟨search_ne_lost hs gid guess, fun looks => search_eq_ended hs gid guess⟩,
    fun start hstart => ?anywhere⟩
  case stored =>
    have hplace : s.index? gid = some i := (index?_eq_some_iff hs).2 (by rw [gidAt?, hn, ← hgid]; rfl)
    refine ⟨hplace, by rw [find?, hplace]; exact hn, fun f => ?_⟩
    have hset : s.nodes.modify i f = s.nodes.set i (f n) := by
      rw [List.modify_eq_set_getElem?, hn]
      rfl
    rw [modify, hplace, ← hset]
    rfl
  case missing =>
    have hplace : s.index? gid = none := by
      rw [Option.eq_none_iff_forall_ne_some]
      intro i hi
      obtain ⟨n, hn, rfl⟩ := exists_of_gidAt? (gidAt?_of_index? hi)
      exact hgid (List.mem_map_of_mem (List.mem_of_getElem? hn))
    exact ⟨hplace, by rw [find?, hplace]; rfl, fun f => by rw [modify, hplace]⟩
  case anywhere =>
    cases hfound : s.index? gid with
    | some j => exact indexFrom?_eq hs (gidAt?_of_index? hfound) hstart
    | none =>
      rw [Option.eq_none_iff_forall_ne_some]
      intro j hj
      rw [(index?_eq_some_iff hs).2 (gidAt?_of_indexFrom? hj)] at hfound
      cases hfound

end Ascending

/-- Six instances at both ends and in the middle of all the numbers that a word can be, found and missed from
whatever guess. -/
theorem lookup_exact_irregular :
    let node (gid : Nat) : Node Inert :=
      { gid, model := 0, category := .normal, vp := .origin, element := {} }
    let s := Store.empty.appendAll
      ([1, 2, 3, 9223372036854775808, 18446744073709551614, 18446744073709551615].map node)
    s.gids.Pairwise (· < ·) ∧ s.index? 9223372036854775808 = some 3 ∧ s.find? 500 = none ∧
      ∀ guess, s.search 9223372036854775808 guess 12 = .ended (some 3) ∧
        s.search 500 guess 12 = .ended none := by
  intro node s
  have hs : s.gids.Pairwise (· < ·) := by decide
  have hn : s.nodes[3]? = some { node 9223372036854775808 with localId := 3 } := rfl
  obtain ⟨-, hstored, -, hsearch, -⟩ := lookup_exact hs 9223372036854775808
  obtain ⟨-, -, hmissing, hsearch', -⟩ := lookup_exact hs 500
  obtain ⟨hplace, -⟩ := hstored 3 _ hn rfl
  obtain ⟨hnone, hfind, -⟩ := hmissing (by decide)
  refine ⟨hs, hplace, hfind, fun guess => ⟨?_, ?_⟩⟩
  · rw [(hsearch guess).2 12 (Nat.le_refl 12), hplace]
  · rw [(hsearch' guess).2 12 (Nat.le_refl 12), hnone]

end Store

end ElementGrid
