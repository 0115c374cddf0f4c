/-!
# Sorting by insertion

`sortBy le` sorts a list and is stable: of two elements that come before each other the one that
stood first stays first. It follows the list, so that a sorted list can be computed where the
library's merge sort, which recurses over lengths, does not unfold; for an order that is transitive
and total the two are one function (`sortBy_eq_mergeSort`).

* `sortBy_perm`, `sortBy_pairwise`: nothing is lost, and the result is in order.
* `sortBy_of_pairwise`: what is in order stays as it is.
* `map_sortBy`: a map that keeps the order commutes with the sorting.
-/

namespace Deskflow

variable {α β : Type}

/-- A list with an element put before the first one that it comes before. -/
def insertBy (le : α → α → Bool) (a : α) : List α → List α
  | [] => [a]
  | b :: l => if le a b then a :: b :: l else b :: insertBy le a l

/-- A list in order. -/
def sortBy (le : α → α → Bool) : List α → List α
  | [] => []
  | a :: l => insertBy le a (sortBy le l)

variable {le : α → α → Bool}

theorem insertBy_of_forall {a : α} {l : List α} (h : ∀ b ∈ l, le a b = true) :
    insertBy le a l = a :: l := by
  cases l with
  | nil => rfl
  | cons b l => exact if_pos (h b (List.mem_cons_self ..))

/-- An element goes after those it does not come before, if it comes before all others. -/
theorem insertBy_append {a : α} {before after : List α} (hbefore : ∀ b ∈ before, (!le a b) = true)
    (hafter : ∀ b ∈ after, le a b = true) :
    insertBy le a (before ++ after) = before ++ a :: after := by
  induction before with
  | nil => exact insertBy_of_forall hafter
  | cons b l ih =>
    have hb : le a b = false := by simpa using hbefore b (List.mem_cons_self ..)
    have hl := ih fun c hc => hbefore c (List.mem_cons_of_mem _ hc)
    simp [insertBy, hb, hl]

theorem insertBy_perm (a : α) (l : List α) : (insertBy le a l).Perm (a :: l) := by
  induction l with
  | nil => exact .refl _
  | cons b l ih =>
    unfold insertBy
    split
    · exact .refl _
    · exact (ih.cons b).trans (.swap ..)

theorem sortBy_perm (l : List α) : (sortBy le l).Perm l := by
  induction l with
  | nil => exact .refl _
  | cons a l ih => exact (insertBy_perm a _).trans (ih.cons a)

section Order

variable (htrans : ∀ a b c, le a b = true → le b c = true → le a c = true)
  (htotal : ∀ a b, (le a b || le b a) = true)

include htrans htotal

theorem sortBy_eq_mergeSort (l : List α) : sortBy le l = l.mergeSort le := by
  induction l with
  | nil => simp [sortBy]
  | cons a l ih =>
    obtain ⟨before, after, hsorted, hl, hbefore⟩ := List.mergeSort_cons htrans htotal a l
    have hpair := List.pairwise_mergeSort htrans htotal (a :: l)
    rw [hsorted, List.pairwise_append, List.pairwise_cons] at hpair
    rw [hsorted, sortBy, ih, hl]
    exact insertBy_append hbefore hpair.2.1.1

theorem sortBy_pairwise (l : List α) : (sortBy le l).Pairwise fun a b => le a b = true :=
  sortBy_eq_mergeSort htrans htotal l ▸ List.pairwise_mergeSort htrans htotal l

/-- Where no two elements come before each other, lists come to the same order when they have the
same elements. -/
theorem sortBy_eq_iff_perm (hantisymm : ∀ a b, le a b = true → le b a = true → a = b)
    {l k : List α} : sortBy le l = sortBy le k ↔ l.Perm k := by
  constructor
  · intro h
    have hk : (sortBy le l).Perm k := h ▸ sortBy_perm k
    exact (sortBy_perm l).symm.trans hk
  · intro h
    have hperm : (sortBy le l).Perm (sortBy le k) :=
      (sortBy_perm l).trans (h.trans (sortBy_perm k).symm)
    exact hperm.eq_of_pairwise (fun a b _ _ => hantisymm a b)
      (sortBy_pairwise htrans htotal l) (sortBy_pairwise htrans htotal k)

end Order

theorem sortBy_int_eq_iff_perm {l k : List Int} :
    sortBy (· ≤ ·) l = sortBy (· ≤ ·) k ↔ l.Perm k :=
  sortBy_eq_iff_perm (by simpa using fun a b c => Int.le_trans) (by simpa using Int.le_total)
    (by simpa using fun a b => Int.le_antisymm)

theorem sortBy_of_pairwise {l : List α} (h : l.Pairwise fun a b => le a b = true) :
    sortBy le l = l := by
  induction l with
  | nil => rfl
  | cons a l ih =>
    obtain ⟨ha, hl⟩ := List.pairwise_cons.mp h
    rw [sortBy, ih hl]
    exact insertBy_of_forall ha

section Map

variable (ge : β → β → Bool) (f : α → β) (h : ∀ a b, ge (f a) (f b) = le a b)

include h

theorem map_insertBy (a : α) (l : List α) :
    (insertBy le a l).map f = insertBy ge (f a) (l.map f) := by
  induction l with
  | nil => rfl
  | cons b l ih =>
    simp only [insertBy, List.map_cons, h]
    split
    · rfl
    · rw [List.map_cons, ih]

theorem map_sortBy (l : List α) : (sortBy le l).map f = sortBy ge (l.map f) := by
  induction l with
  | nil => rfl
  | cons a l ih => rw [sortBy, map_insertBy ge f h, ih, List.map_cons, sortBy]

end Map

-- Unfolded while terms are compared, a sort would draw the run of a whole program after it.
attribute [irreducible] sortBy

end Deskflow
