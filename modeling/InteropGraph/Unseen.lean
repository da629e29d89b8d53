/-!
# Counting what has not been seen

A search over finitely many things ends because each step takes one that has not been seen before:
`unseen_cons_lt`.
-/

namespace InteropGraph

/-- How many elements of `all` are not in `seen`. -/
def unseen [DecidableEq α] (all seen : List α) : Nat :=
  (all.filter (· ∉ seen)).length

theorem unseen_cons_lt [DecidableEq α] {all seen : List α} {a : α} (hall : a ∈ all)
    (hseen : a ∉ seen) : unseen all (a :: seen) < unseen all seen := by
  have hfilter : all.filter (· ∉ a :: seen) = (all.filter (· ∉ seen)).filter (· ≠ a) := by
    rw [List.filter_filter]
    congr 1
    funext x
    simp [List.mem_cons, not_or]
  unfold unseen
  rw [hfilter]
  refine List.length_filter_lt_length_iff_exists.mpr ⟨a, ?_, by simp⟩
  exact List.mem_filter.mpr ⟨hall, by simpa using hseen⟩

end InteropGraph
