import Mathlib.Data.List.Sort

/-!
# A heap with lazy deletion

The heap is a list in order. An entry that is no longer `live` stays where it is until it comes to the top; the top is
found by dropping such entries.
-/

namespace LazyHeap

variable {α : Type} {r : α → α → Prop} {live : α → Bool} {heap : List α}

theorem mem_dropWhile {x : α} (hx : x ∈ heap) (hl : live x = true) : x ∈ heap.dropWhile fun y => !live y := by
  induction heap with
  | nil => cases hx
  | cons y heap ih =>
    rw [List.dropWhile_cons]
    by_cases hy : live y = true
    · rw [hy]
      exact hx
    rw [if_pos (by simpa using hy)]
    rcases List.mem_cons.mp hx with rfl | hx
    · exact absurd hl hy
    exact ih hx

theorem sorted_dropWhile (hs : heap.Pairwise r) : (heap.dropWhile fun y => !live y).Pairwise r :=
  hs.sublist (List.dropWhile_sublist _)

theorem top_first (hs : heap.Pairwise r) {top : α} {rest : List α}
    (h : heap.dropWhile (fun y => !live y) = top :: rest)
    {x : α} (hx : x ∈ heap) (hl : live x = true) : x = top ∨ r top x := by
  have hmem := mem_dropWhile hx hl
  have hsorted : (top :: rest).Pairwise r := h ▸ sorted_dropWhile hs
  rw [h] at hmem
  rcases List.mem_cons.mp hmem with hx | hx
  · exact .inl hx
  exact .inr (List.rel_of_pairwise_cons hsorted hx)

end LazyHeap
