import Mathlib.Data.Finset.Insert

/-! Admitting elements one after another while a condition allows it, where what is too much stays
so when more was admitted before.
-/

namespace VerticalAI.Foundation.Greedy

variable {α : Type} [DecidableEq α] {fits : Finset α → Prop} [DecidablePred fits]
  {kept : Finset α}

/-- Admit an element if it still fits. -/
def accept (fits : Finset α → Prop) [DecidablePred fits] (kept : Finset α) (element : α)
    : Finset α :=
  if fits (insert element kept) then insert element kept else kept

theorem subset_accept (element : α) : kept ⊆ accept fits kept element := by
  unfold accept
  split
  · exact Finset.subset_insert _ _
  · exact Finset.Subset.refl _

/-- Nothing is given up again, by induction on what is admitted. -/
theorem subset_foldl (order : List α) : kept ⊆ order.foldl (accept fits) kept := by
  induction order generalizing kept with
  | nil => exact Finset.Subset.refl _
  | cons element rest ih => exact (subset_accept element).trans ih

/-- What was refused would not fit at the end either, by induction on what is admitted. -/
theorem not_fits_insert (anti : ∀ fewer more, fewer ⊆ more → fits more → fits fewer)
    {order : List α}
    {element : α} (listed : element ∈ order) (refused : element ∉ order.foldl (accept fits) kept)
    : ¬fits (insert element (order.foldl (accept fits) kept)) := by
  induction order generalizing kept with
  | nil => cases listed
  | cons first rest ih =>
      rcases List.mem_cons.mp listed with rfl | later
      · intro allowed
        have fitted : fits (insert element kept) := by
          refine anti _ _ (Finset.insert_subset_insert _ ?_) allowed
          exact subset_foldl (element :: rest)
        refine refused (subset_foldl rest ?_)
        rw [accept, if_pos fitted]
        exact Finset.mem_insert_self _ _
      · exact ih later refused

end VerticalAI.Foundation.Greedy
