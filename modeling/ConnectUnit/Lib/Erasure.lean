import Mathlib.Data.Finset.Card
import Mathlib.Data.Finset.Range

/-!
# Erasure codes

A codec for `d` data and `p` parity shards turns `d` shards into a word of `d + p` shards of the same length; any `d`
shards of the word give it back.
-/

structure Codec (γ α : Type) where
  new : (data parity : Nat) → Option γ
  encode : γ → List (List α) → Option (List (List α))
  reconstruct : γ → List (Option (List α)) → Option (List (Option (List α)))

/-! ## Masks -/

/-- The word with only the shards in `s` known. -/
def mask {β : Type} (word : List β) (s : Finset Nat) : List (Option β) :=
  word.mapIdx fun i x => if i ∈ s then some x else none

section
variable {β : Type} (word : List β) (s : Finset Nat)

@[simp] theorem length_mask : (mask word s).length = word.length := List.length_mapIdx

theorem getElem?_mask {i : Nat} :
    (mask word s)[i]? = (word[i]?).map fun x => if i ∈ s then some x else none := List.getElem?_mapIdx

theorem mask_empty : mask word ∅ = List.replicate word.length none := by
  refine List.ext_getElem? fun i => ?_
  rw [getElem?_mask, List.getElem?_replicate]
  by_cases h : i < word.length
  · simp [h]
  simp [h]

theorem set_mask {i : Nat} {x : β} (h : word[i]? = some x) :
    (mask word s).set i (some x) = mask word (insert i s) := by
  refine List.ext_getElem? fun j => ?_
  rw [List.getElem?_set, getElem?_mask, getElem?_mask, length_mask]
  obtain ⟨hi, hx⟩ := List.getElem?_eq_some_iff.mp h
  by_cases hj : i = j
  · subst hj
    simp [hi, hx]
  have hj' : ¬ j = i := fun he => hj he.symm
  simp [hj, hj']

theorem take_mask {n : Nat} (h : ∀ i < n, i < word.length → i ∈ s) :
    (mask word s).take n = (word.take n).map some := by
  refine List.ext_getElem? fun i => ?_
  rw [List.getElem?_take, List.getElem?_map, List.getElem?_take]
  by_cases hi : i < n
  · rw [if_pos hi, if_pos hi, getElem?_mask]
    cases hx : word[i]? with
    | none => rfl
    | some x => simp [h i hi (List.getElem?_eq_some_iff.mp hx).1]
  · rw [if_neg hi, if_neg hi]; rfl

theorem known_take_mask_iff {n : Nat} (hn : n ≤ word.length) :
    (((mask word s).take n).filter Option.isSome).length = n ↔ ∀ i < n, i ∈ s := by
  have hlen : ((mask word s).take n).length = n := by rw [List.length_take, length_mask]; omega
  constructor
  · intro h i hi
    replace h := List.length_filter_eq_length_iff.mp (h.trans hlen.symm)
    have hw : i < word.length := by omega
    have hget : ((mask word s).take n)[i]? = some (if i ∈ s then some word[i] else none) := by
      rw [List.getElem?_take, if_pos (by omega), getElem?_mask, List.getElem?_eq_getElem hw, Option.map_some]
    have hsome := h _ (List.mem_of_getElem? hget)
    by_contra hns
    rw [if_neg hns] at hsome
    cases hsome
  intro h
  rw [take_mask word s fun i hi _ => h i hi]
  have hall : ((word.take n).map some).filter Option.isSome = (word.take n).map some := by
    refine List.filter_eq_self.mpr fun x hx => ?_
    obtain ⟨y, _, rfl⟩ := List.mem_map.mp hx
    rfl
  rw [hall, List.length_map, List.length_take]
  omega

end

/-! ## Laws -/

namespace Codec

variable {γ α : Type} (C : Codec γ α)

def Shards (shards : List (List α)) (count size : Nat) : Prop :=
  shards.length = count ∧ ∀ x ∈ shards, x.length = size

/-- Encoding succeeds, leaves the data shards as they are and fills in the parity shards. -/
structure Encodes (d p : Nat) : Prop where
  exists_new : ∃ c, C.new d p = some c
  systematic : ∀ c shards size, C.new d p = some c → 0 < size → Shards shards (d + p) size →
    ∃ parity, C.encode c shards = some (shards.take d ++ parity) ∧ Shards parity p size

/-- Any `d` shards of an encoded word reconstruct it. -/
structure Corrects (d p : Nat) : Prop extends Encodes C d p where
  reconstructs : ∀ c shards size word (s : Finset Nat), C.new d p = some c → 0 < size → Shards shards (d + p) size →
    C.encode c shards = some word → s ⊆ Finset.range (d + p) → d ≤ s.card →
      C.reconstruct c (mask word s) = some (word.map some)

end Codec
