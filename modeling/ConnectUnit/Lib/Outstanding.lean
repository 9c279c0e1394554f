import Mathlib.Data.Finset.Card
import ConnectUnit.Lib.HashMap

/-!
# Requests under way

A table of requests by id, some of them made for an owner, and the owners that wait for an answer.
-/

namespace Outstanding

/-! ## Owners that wait -/

section
variable {K V O : Type} [DecidableEq O] (owner : V → Option O) (m : HashMap K V)

def remains (o : O) : Bool := m.entries.any fun e => owner e.2 = some o

/-- Who waits once the request `v` is gone from the table: its owner only if another one remains. -/
def settled (waiting : List O) (v : V) : List O :=
  match owner v with
  | none => waiting
  | some o => if remains owner m o then waiting else waiting.filter (· ≠ o)

variable {owner m} {waiting : List O} {v : V}

theorem settled_of_none (h : owner v = none) : settled owner m waiting v = waiting := by
  unfold settled
  rw [h]

theorem settled_of_some {o : O} (h : owner v = some o) :
    settled owner m waiting v = if remains owner m o then waiting else waiting.filter (· ≠ o) := by
  unfold settled
  rw [h]

end

section
variable {K V O : Type} [DecidableEq K] (owner : V → Option O) (m : HashMap K V)

def Backed (waiting : List O) : Prop := ∀ o ∈ waiting, ∃ k v, m.lookup k = some v ∧ owner v = some o

variable {owner m} {waiting : List O} {v : V}

theorem remains_iff [DecidableEq O] {o : O} :
    remains owner m o = true ↔ ∃ k v, m.lookup k = some v ∧ owner v = some o := by
  unfold remains
  rw [List.any_eq_true]
  constructor
  · rintro ⟨e, he, ho⟩
    exact ⟨e.1, e.2, (m.lookup_eq_some_iff).mpr he, of_decide_eq_true ho⟩
  rintro ⟨k, v, hk, ho⟩
  exact ⟨⟨k, v⟩, (m.lookup_eq_some_iff).mp hk, decide_eq_true ho⟩

namespace Backed

theorem subset (h : Backed owner m waiting) {waiting' : List O} (hsub : ∀ o ∈ waiting', o ∈ waiting) :
    Backed owner m waiting' := fun o ho => h o (hsub o ho)

theorem grow (h : Backed owner m waiting) {m' : HashMap K V} (hm : ∀ k v, m.lookup k = some v → m'.lookup k = some v)
    : Backed owner m' waiting := by
  intro o ho
  obtain ⟨k, v, hk, hv⟩ := h o ho
  exact ⟨k, v, hm k v hk, hv⟩

variable [DecidableEq O]

theorem erase (h : Backed owner m waiting) {k : K} (hk : m.lookup k = some v)
    (hlast : ∀ o ∈ waiting, owner v = some o → remains owner (m.erase k) o = true) :
    Backed owner (m.erase k) waiting := by
  intro o ho
  by_cases hv : owner v = some o
  · exact remains_iff.mp (hlast o ho hv)
  obtain ⟨k', v', hk', hv'⟩ := h o ho
  have hne : k' ≠ k := by
    rintro rfl
    rw [hk] at hk'
    cases hk'
    exact hv hv'
  refine ⟨k', v', ?_, hv'⟩
  rw [HashMap.lookup_erase_eq, if_neg hne]
  exact hk'

theorem settle (h : Backed owner m waiting) {k : K} (hk : m.lookup k = some v) :
    Backed owner (m.erase k) (settled owner (m.erase k) waiting v) := by
  cases hv : owner v with
  | none =>
    rw [settled_of_none hv]
    exact h.erase hk fun o _ ho => by rw [hv] at ho; cases ho
  | some o =>
    rw [settled_of_some hv]
    split
    next hr =>
      refine h.erase hk fun o' _ ho' => ?_
      rw [hv] at ho'
      cases ho'
      exact hr
    next =>
      have hsub : ∀ o' ∈ waiting.filter (· ≠ o), o' ∈ waiting := fun o' ho' => (List.mem_filter.mp ho').1
      refine (h.subset hsub).erase hk fun o' ho' hv' => ?_
      rw [hv] at hv'
      cases hv'
      exact absurd rfl (of_decide_eq_true (List.mem_filter.mp ho').2)

end Backed

end

/-! ## Free ids -/

section
variable {K : Type} (next : K → K) (taken : K → Bool)

/-- The first id from `k` on that is not taken, with the one after it. -/
def firstFree : Nat → K → Option (K × K)
  | 0, _ => none
  | fuel + 1, k => if taken k then firstFree fuel (next k) else some (k, next k)

variable {next taken}

theorem firstFree_free {fuel : Nat} {k : K} {r : K × K} (h : firstFree next taken fuel k = some r) :
    taken r.1 = false := by
  induction fuel generalizing k with
  | zero => cases h
  | succ fuel ih =>
    rw [firstFree] at h
    split at h
    next => exact ih h
    next hk =>
      cases h
      exact Bool.eq_false_of_not_eq_true hk

theorem taken_of_firstFree {fuel : Nat} {k : K} (h : firstFree next taken fuel k = none) {i : Nat} (hi : i < fuel) :
    taken (next^[i] k) = true := by
  induction fuel generalizing k i with
  | zero => omega
  | succ fuel ih =>
    rw [firstFree] at h
    split at h
    next hk =>
      cases i with
      | zero => exact hk
      | succ i => exact ih h (Nat.lt_of_succ_lt_succ hi)
    next => cases h

theorem firstFree_isSome {V I : Type} [DecidableEq I] {m : HashMap I V} {key : K → I} {k : K}
    (hinj : ∀ i j, i ≤ m.size → j ≤ m.size → key (next^[i] k) = key (next^[j] k) → i = j) :
    (firstFree next (fun k => (m.lookup (key k)).isSome) (m.size + 1) k).isSome = true := by
  by_contra hnone
  rw [Option.not_isSome_iff_eq_none] at hnone
  have htaken : ∀ i ∈ Finset.range (m.size + 1), key (next^[i] k) ∈ m.keys.toFinset := by
    intro i hi
    have hl := taken_of_firstFree hnone (Finset.mem_range.mp hi)
    rw [List.mem_toFinset, ← AList.mem_keys]
    exact AList.lookup_isSome.mp hl
  have hcard := Finset.card_le_card_of_injOn (fun i => key (next^[i] k)) htaken fun i hi j hj hij =>
    hinj i j (Nat.lt_succ_iff.mp (Finset.mem_range.mp hi)) (Nat.lt_succ_iff.mp (Finset.mem_range.mp hj)) hij
  rw [Finset.card_range] at hcard
  have hkeys : m.keys.toFinset.card ≤ m.size := (List.toFinset_card_le _).trans (List.length_map _).le
  omega

end

end Outstanding
