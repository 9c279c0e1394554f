import Mathlib.Algebra.BigOperators.Group.List.Basic
import Mathlib.Data.List.Nodup

/-!
# Maps that keep the order of insertion

Entries with distinct keys, addressed by key or by position. A value is changed where it stands; a new key goes to the
end; a removal closes the gap.
-/

structure IndexMap (K V : Type) where
  entries : List (K × V)
  nodup : (entries.map Prod.fst).Nodup

open List (find?_append find?_eq_none map_append map_cons mem_map)

namespace IndexMap

variable {i : Nat}

section
variable {K V : Type}

def empty : IndexMap K V := ⟨[], List.nodup_nil⟩

instance : EmptyCollection (IndexMap K V) := ⟨empty⟩

variable (m : IndexMap K V)

def size : Nat := m.entries.length

def keys : List K := m.entries.map Prod.fst

def getIndex (i : Nat) : Option (K × V) := m.entries[i]?

theorem map_fst_modify {l : List (K × V)} {f : V → V} :
    (l.modify i fun e => (e.1, f e.2)).map Prod.fst = l.map Prod.fst := by
  induction l generalizing i with
  | nil => rw [List.modify_nil]
  | cons e l ih =>
    cases i with
    | zero => rfl
    | succ i => rw [List.modify_succ_cons, map_cons, map_cons, ih]

def modifyAt (i : Nat) (f : V → V) : IndexMap K V where
  entries := m.entries.modify i fun e => (e.1, f e.2)
  nodup := by rw [map_fst_modify]; exact m.nodup

def removeAt (i : Nat) : IndexMap K V where
  entries := m.entries.eraseIdx i
  nodup := m.nodup.sublist ((List.eraseIdx_sublist m.entries i).map Prod.fst)

variable [DecidableEq K]

def indexOf? (k : K) : Option Nat := m.entries.findIdx? (·.1 = k)

def get? (k : K) : Option V := (m.entries.find? (·.1 = k)).map Prod.snd

theorem not_mem_keys_of_indexOf? {k : K} (h : m.indexOf? k = none) : k ∉ m.keys := by
  intro hk
  obtain ⟨e, he, rfl⟩ := mem_map.mp hk
  have := List.findIdx?_eq_none_iff.mp h e he
  simp at this

/-- Changes the value of a key; a key that is not there is added with the change of `new`. -/
def upsert (k : K) (new : V) (f : V → V) : IndexMap K V :=
  match h : m.indexOf? k with
  | some i => m.modifyAt i f
  | none =>
    { entries := m.entries ++ [(k, f new)]
      nodup := by
        rw [map_append]
        refine List.nodup_append.mpr ⟨m.nodup, List.nodup_singleton _, fun a ha b hb hab => ?_⟩
        obtain rfl : a = k := hab.trans (List.mem_singleton.mp hb)
        exact m.not_mem_keys_of_indexOf? h ha }

end

/-! ## Where an entry stands -/

section
variable {K V : Type} {m : IndexMap K V}
variable {k : K} {v : V}

theorem exists_split {e : K × V} (h : m.getIndex i = some e) : ∃ l₁ l₂, m.entries = l₁ ++ e :: l₂ ∧ l₁.length = i ∧
    (m.removeAt i).entries = l₁ ++ l₂ ∧ ∀ f, (m.modifyAt i f).entries = l₁ ++ (e.1, f e.2) :: l₂ := by
  obtain ⟨hi, he⟩ := List.getElem?_eq_some_iff.mp h
  have hsplit : m.entries = m.entries.take i ++ e :: m.entries.drop (i + 1) := by
    rw [← he, ← List.drop_eq_getElem_cons hi, List.take_append_drop]
  have hlen : (m.entries.take i).length = i := by
    rw [List.length_take]
    exact Nat.min_eq_left (Nat.le_of_lt hi)
  refine ⟨m.entries.take i, m.entries.drop (i + 1), hsplit, hlen, ?_, fun f => ?_⟩
  · exact List.eraseIdx_eq_take_drop_succ m.entries i
  show m.entries.modify i _ = _
  rw [List.modify_eq_take_cons_drop hi, he]

theorem getIndex_inj {j : Nat} {w : V} (hi : m.getIndex i = some (k, v)) (hj : m.getIndex j = some (k, w)) : i =
    j := by
  have hkey {i : Nat} {v : V} (h : m.getIndex i = some (k, v)) : m.keys[i]? = some k := by
    rw [keys, List.getElem?_map]
    exact congrArg (Option.map Prod.fst) h
  obtain ⟨hlt, _⟩ := List.getElem?_eq_some_iff.mp (hkey hi)
  exact (List.getElem?_inj hlt m.nodup).mp ((hkey hi).trans (hkey hj).symm)

theorem getIndex_modifyAt (h : m.getIndex i = some (k, v)) (f : V → V) :
    (m.modifyAt i f).getIndex i = some (k, f v) := by
  unfold getIndex at *
  show (m.entries.modify i _)[i]? = _
  rw [List.getElem?_modify_eq, h]
  rfl

theorem getIndex_modifyAt_ne {j : Nat} (h : i ≠ j) (f : V → V) : (m.modifyAt i f).getIndex j = m.getIndex j := by
  show (m.entries.modify i _)[j]? = _
  rw [List.getElem?_modify_ne _ _ h]
  rfl

theorem size_modifyAt {f : V → V} : (m.modifyAt i f).size = m.size := by
  show (m.entries.modify i _).length = _
  rw [List.length_modify]
  rfl

variable [DecidableEq K]

theorem getIndex_of_indexOf? (h : m.indexOf? k = some i) : ∃ v, m.getIndex i = some (k, v) := by
  obtain ⟨hi, hp, _⟩ := List.findIdx?_eq_some_iff_getElem.mp h
  have hk : (m.entries[i]).1 = k := of_decide_eq_true hp
  exact ⟨(m.entries[i]).2, by rw [getIndex, List.getElem?_eq_getElem hi, ← hk]⟩

theorem get?_of_getIndex (h : m.getIndex i = some (k, v)) : m.get? k = some v := by
  obtain ⟨l₁, l₂, hsplit, _⟩ := exists_split h
  have hnd := m.nodup
  rw [hsplit, map_append, map_cons] at hnd
  have hnot : ∀ e ∈ l₁, ¬ e.1 = k := fun e he hk =>
    (List.nodup_append.mp hnd).2.2 e.1 (List.mem_map_of_mem he) k List.mem_cons_self hk
  unfold get?
  rw [hsplit, find?_append, find?_eq_none.mpr fun e he => by simpa using hnot e he]
  simp

theorem indexOf?_of_getIndex (h : m.getIndex i = some (k, v)) : m.indexOf? k = some i := by
  cases hidx : m.indexOf? k with
  | none => exact absurd (List.mem_map_of_mem (List.mem_of_getElem? h)) (m.not_mem_keys_of_indexOf? hidx)
  | some j =>
    obtain ⟨w, hw⟩ := getIndex_of_indexOf? hidx
    rw [getIndex_inj hw h]

theorem get?_eq_none_of_indexOf? (h : m.indexOf? k = none) : m.get? k = none := by
  unfold get?
  rw [find?_eq_none.mpr fun e he => ?_]
  · rfl
  simpa using List.findIdx?_eq_none_iff.mp h e he

end

section
variable {K V : Type} [DecidableEq K] {m : IndexMap K V}
variable {k : K} {v : V}

theorem upsert_of_indexOf? (h : m.indexOf? k = some i) (new : V) (f : V → V) : m.upsert k new f = m.modifyAt i f := by
  unfold upsert
  split
  · rename_i j hj
    rw [h] at hj
    cases hj
    rfl
  rename_i hj
  rw [h] at hj
  cases hj

theorem get?_of_split {l₁ l₂ : List (K × V)} {k' : K} (h : m.entries = l₁ ++ (k, v) :: l₂) (hk : k' ≠ k) :
    m.get? k' = ((l₁ ++ l₂).find? (·.1 = k')).map Prod.snd := by
  unfold get?
  rw [h, find?_append, find?_append, List.find?_cons_of_neg (by simpa using Ne.symm hk)]

theorem get?_upsert (k k' : K) (new : V) (f : V → V) :
    (m.upsert k new f).get? k' = if k' = k then some (f ((m.get? k).getD new)) else m.get? k' := by
  unfold upsert
  split
  · rename_i i hi
    obtain ⟨v, hv⟩ := getIndex_of_indexOf? hi
    split
    · rename_i hk
      rw [hk, get?_of_getIndex (getIndex_modifyAt hv f), get?_of_getIndex hv]
      rfl
    rename_i hk
    obtain ⟨l₁, l₂, hsplit, _, _, hmod⟩ := exists_split hv
    rw [get?_of_split (hmod f) hk, get?_of_split hsplit hk]
  rename_i hi
  show ((m.entries ++ [(k, f new)]).find? (·.1 = k')).map Prod.snd = _
  rw [find?_append]
  split
  · rename_i hk
    have hnone := get?_eq_none_of_indexOf? hi
    rw [hk, hnone]
    unfold get? at hnone
    rw [Option.map_eq_none_iff.mp hnone]
    simp
  rename_i hk
  rw [List.find?_cons_of_neg (by simpa using Ne.symm hk), List.find?_nil, Option.or_none]
  rfl

theorem get?_modifyAt (h : m.getIndex i = some (k, v)) {f : V → V} {k' : K} :
    (m.modifyAt i f).get? k' = if k' = k then some (f v) else m.get? k' := by
  have heq := upsert_of_indexOf? (indexOf?_of_getIndex h) v f
  rw [← heq, get?_upsert, get?_of_getIndex h]
  rfl

theorem get?_removeAt (h : m.getIndex i = some (k, v)) {k' : K} :
    (m.removeAt i).get? k' = if k' = k then none else m.get? k' := by
  obtain ⟨l₁, l₂, hsplit, _, hrem, _⟩ := exists_split h
  split
  · rename_i hk
    have hnd := m.nodup
    rw [hsplit, map_append, map_cons, List.nodup_middle, List.nodup_cons, ← map_append] at hnd
    unfold get?
    rw [hrem, hk, Option.map_eq_none_iff, find?_eq_none]
    intro e he hek
    exact hnd.1 (mem_map.mpr ⟨e, he, of_decide_eq_true hek⟩)
  rename_i hk
  rw [get?_of_split hsplit hk]
  unfold get?
  rw [hrem]

end

/-! ## Totals -/

section
variable {K V M : Type} [AddCommMonoid M] {m : IndexMap K V}
variable {k : K}

def total (m : IndexMap K V) (μ : K → V → M) : M := (m.entries.map fun e => μ e.1 e.2).sum

variable {μ : K → V → M}

theorem total_eq_of_split {l₁ l₂ : List (K × V)} {e : K × V} (h : m.entries = l₁ ++ e :: l₂) :
    m.total μ = μ e.1 e.2 + ((l₁ ++ l₂).map fun e => μ e.1 e.2).sum := by
  unfold total
  rw [h]
  simp only [map_append, map_cons, List.sum_append, List.sum_cons]
  exact add_left_comm _ _ _

theorem total_modifyAt {v : V} (h : m.getIndex i = some (k, v)) {f : V → V} :
    (m.modifyAt i f).total μ + μ k v = m.total μ + μ k (f v) := by
  obtain ⟨l₁, l₂, hsplit, _, _, hmod⟩ := exists_split h
  rw [total_eq_of_split hsplit, total_eq_of_split (hmod f)]
  exact add_right_comm _ _ _ |>.trans (by rw [add_comm (μ k (f v)) (μ k v), add_right_comm])

theorem total_removeAt {v : V} (h : m.getIndex i = some (k, v)) : (m.removeAt i).total μ + μ k v = m.total μ := by
  obtain ⟨l₁, l₂, hsplit, _, hrem, _⟩ := exists_split h
  rw [total_eq_of_split hsplit]
  unfold total
  rw [hrem, add_comm]

variable [DecidableEq K]

theorem total_upsert {new : V} (hnew : μ k new = 0) {f : V → V} :
    (m.upsert k new f).total μ + μ k ((m.get? k).getD new) = m.total μ + μ k (f ((m.get? k).getD new)) := by
  unfold upsert
  split
  · rename_i i hi
    obtain ⟨v, hv⟩ := getIndex_of_indexOf? hi
    rw [get?_of_getIndex hv]
    exact total_modifyAt hv
  rename_i hi
  rw [get?_eq_none_of_indexOf? hi]
  show ((m.entries ++ [(k, f new)]).map fun e => μ e.1 e.2).sum + μ k new = _
  rw [hnew, add_zero, map_append, List.sum_append]
  simp [total]

end

/-! ## Balances

With cancellation, what an operation gains and loses at one entry is what the total gains and loses. -/

section
variable {K V M : Type} [AddCancelCommMonoid M] {m : IndexMap K V} {μ : K → V → M} {gain loss : M}
variable {f : V → V}

theorem balance_modifyAt {k : K} {v : V} (h : m.getIndex i = some (k, v))
    (hb : μ k v + gain = μ k (f v) + loss) : m.total μ + gain = (m.modifyAt i f).total μ + loss := by
  apply add_right_cancel (b := μ k v)
  calc m.total μ + gain + μ k v = m.total μ + (μ k v + gain) := by rw [add_assoc, add_comm gain]
    _ = m.total μ + μ k (f v) + loss := by rw [hb, add_assoc]
    _ = (m.modifyAt i f).total μ + loss + μ k v := by rw [← total_modifyAt h, add_right_comm]

variable [DecidableEq K]

theorem balance_upsert {new : V} {k : K} (hnew : μ k new = 0)
    (hb : μ k ((m.get? k).getD new) + gain = μ k (f ((m.get? k).getD new)) + loss) :
    m.total μ + gain = (m.upsert k new f).total μ + loss := by
  apply add_right_cancel (b := μ k ((m.get? k).getD new))
  calc m.total μ + gain + μ k ((m.get? k).getD new) = m.total μ + (μ k ((m.get? k).getD new) + gain) := by
        rw [add_assoc, add_comm gain]
    _ = m.total μ + μ k (f ((m.get? k).getD new)) + loss := by rw [hb, add_assoc]
    _ = (m.upsert k new f).total μ + loss + μ k ((m.get? k).getD new) := by
        rw [← total_upsert hnew, add_right_comm]

end

end IndexMap
