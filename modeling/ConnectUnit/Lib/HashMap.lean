import Mathlib.Algebra.Ring.Nat
import Mathlib.Data.List.AList
import Mathlib.Data.List.FinRange
import Mathlib.Algebra.BigOperators.Group.List.Basic

/-!
# Hash maps as association lists

A hash map is modelled by Mathlib's `AList`: a list of entries with distinct keys, whose order stands for the
iteration order.
-/

abbrev HashMap (K V : Type) := AList fun _ : K => V

/-- An order in which a hash map may yield what it holds. -/
structure IterOrder where
  shuffle : (n : Nat) → Equiv.Perm (Fin n)

namespace IterOrder

variable {α : Type}

def asStored : IterOrder := ⟨fun _ => Equiv.refl _⟩

def arrange (o : IterOrder) {α : Type} (l : List α) : List α := List.ofFn fun i => l.get (o.shuffle l.length i)

theorem arrange_perm (o : IterOrder) (l : List α) : (o.arrange l).Perm l := by
  have h := (o.shuffle l.length).ofFn_comp_perm l.get
  rw [List.ofFn_get] at h
  exact h

theorem mem_arrange (o : IterOrder) {l : List α} {x : α} : x ∈ o.arrange l ↔ x ∈ l := (o.arrange_perm l).mem_iff

end IterOrder

namespace HashMap

/-- Equality of maps is decided on the entries; Mathlib's instance goes through a cast that does not compute. -/
instance {K V : Type} [DecidableEq K] [DecidableEq V] : DecidableEq (HashMap K V) := fun m m' =>
  decidable_of_iff (m.entries = m'.entries) AList.ext_iff.symm

/-! ## Operations -/

section
variable {K V : Type}
variable (m : HashMap K V)

def size : Nat := m.entries.length

def retain (p : K → V → Bool) : HashMap K V where
  entries := m.entries.filter fun e => p e.1 e.2
  nodupKeys := m.nodupKeys.sublist List.filter_sublist

/-- The sum of a quantity over all that the map holds. -/
def total (f : V → Nat) : Nat := (m.entries.map fun e => f e.2).sum

def mapVals (f : V → V) : HashMap K V where
  entries := m.entries.map fun e => ⟨e.1, f e.2⟩
  nodupKeys := by
    have hk : (m.entries.map fun e => (⟨e.1, f e.2⟩ : Sigma fun _ : K => V)).keys = m.entries.keys := by
      simp [List.keys, List.map_map, Function.comp_def]
    have := m.nodupKeys
    unfold List.NodupKeys at *
    rw [hk]; exact this

def mapWithKey {W : Type} (m : HashMap K V) (f : K → V → W) : HashMap K W where
  entries := m.entries.map fun e => ⟨e.1, f e.1 e.2⟩
  nodupKeys := by
    have hk : (m.entries.map fun e => (⟨e.1, f e.1 e.2⟩ : Sigma fun _ : K => W)).keys = m.entries.keys := by
      simp [List.keys, List.map_map, Function.comp_def]
    have := m.nodupKeys
    unfold List.NodupKeys at *
    rw [hk]; exact this

def modify [DecidableEq K] (m : HashMap K V) (k : K) (f : V → V) : HashMap K V :=
  match m.lookup k with
  | some v => m.insert k (f v)
  | none => m

end

section
variable {K V : Type} [DecidableEq K] (m : HashMap K V)
variable {k : K} {v : V}

/-! ## Lookups -/

theorem lookup_insert_eq (k k' : K) (v : V) : (m.insert k v).lookup k' = if k' = k then some v else m.lookup k' := by
  by_cases h : k' = k
  · subst h; simp
  simp [h]

theorem lookup_erase_eq (k k' : K) : (m.erase k).lookup k' = if k' = k then none else m.lookup k' := by
  by_cases h : k' = k
  · subst h; simp
  simp [h]

theorem forall_erased_iff {f : K → Option V} : (∀ x, (if x = k then none else f x) = f x) ↔ f k = none := by
  constructor
  · intro h
    have hk := h k
    rw [if_pos rfl] at hk
    exact hk.symm
  intro h x
  split
  · rename_i hx; rw [hx, h]
  rfl

theorem lookup_eq_some_iff : m.lookup k = some v ↔ ⟨k, v⟩ ∈ m.entries := List.mem_dlookup_iff m.nodupKeys

theorem filter_key_eq {l : List (Sigma fun _ : K => V)} (h : l.Perm m.entries) (k : K) :
    l.filter (fun e => e.1 = k) = ((m.lookup k).map fun v => (⟨k, v⟩ : Sigma fun _ : K => V)).toList := by
  have hperm :
      (l.filter fun e => e.1 = k).Perm ((m.lookup k).map fun v => (⟨k, v⟩ : Sigma fun _ : K => V)).toList := by
    have hnodup : (l.filter fun e => e.1 = k).Nodup := (h.nodup_iff.mpr m.nodupKeys.nodup).filter _
    refine (List.perm_ext_iff_of_nodup hnodup (by cases m.lookup k <;> simp)).mpr fun x => ?_
    simp only [List.mem_filter, decide_eq_true_eq, Option.mem_toList, Option.map_eq_some_iff, lookup_eq_some_iff]
    constructor
    · intro hx
      obtain ⟨hx, rfl⟩ := hx
      exact ⟨x.2, h.mem_iff.mp hx, rfl⟩
    intro hx
    obtain ⟨v, hv, rfl⟩ := hx
    exact ⟨h.mem_iff.mpr hv, rfl⟩
  cases hk : m.lookup k with
  | none =>
    rw [hk] at hperm
    exact hperm.eq_nil
  | some v =>
    rw [hk] at hperm
    exact List.perm_singleton.mp hperm

theorem lookup_retain (p : K → V → Bool) (k : K) : (m.retain p).lookup k = (m.lookup k).filter (p k) := by
  ext v
  simp only [Option.filter_eq_some_iff, lookup_eq_some_iff]
  exact List.mem_filter

theorem lookup_mapWithKey {W : Type} (f : K → V → W) : (m.mapWithKey f).lookup k = (m.lookup k).map (f k) := by
  ext v
  simp only [Option.map_eq_some_iff, lookup_eq_some_iff]
  constructor
  · intro h
    obtain ⟨e, he, heq⟩ := List.mem_map.mp h
    cases heq
    exact ⟨e.2, he, rfl⟩
  intro h
  obtain ⟨w, hw, rfl⟩ := h
  exact List.mem_map.mpr ⟨⟨k, w⟩, hw, rfl⟩

theorem mapWithKey_erase {W : Type} {f : K → V → W} : mapWithKey (m.erase k) f = (m.mapWithKey f).erase k := by
  refine AList.ext ?_
  show (m.entries.kerase k).map _ = (m.entries.map _).kerase k
  induction m.entries with
  | nil => rfl
  | cons e l ih =>
    by_cases h : k = e.1
    · have h' : k = (⟨e.1, f e.1 e.2⟩ : Sigma fun _ : K => W).1 := h
      rw [List.map_cons, List.kerase_cons_eq h, List.kerase_cons_eq h']
    have h' : k ≠ (⟨e.1, f e.1 e.2⟩ : Sigma fun _ : K => W).1 := h
    rw [List.map_cons, List.kerase_cons_ne h, List.kerase_cons_ne h', List.map_cons, ih]

theorem lookup_mapVals (f : V → V) (k : K) : (m.mapVals f).lookup k = (m.lookup k).map f :=
  m.lookup_mapWithKey (fun _ => f)

theorem lookup_modify {f : V → V} {k' : K} :
    (m.modify k f).lookup k' = if k' = k then (m.lookup k).map f else m.lookup k' := by
  unfold modify
  cases h : m.lookup k with
  | none =>
    by_cases hk : k' = k
    · subst hk; simp [h]
    simp [hk]
  | some v => rw [lookup_insert_eq]; rfl

theorem lookup_foldl_insert {ks : List K} :
    (ks.foldl (fun m k => m.insert k v) m).lookup k = if k ∈ ks then some v else m.lookup k := by
  induction ks generalizing m with
  | nil => simp
  | cons k' ks ih =>
    rw [List.foldl_cons, ih, lookup_insert_eq]
    by_cases h : k ∈ ks
    · simp [h]
    simp [h]

theorem mem_iff_lookup : k ∈ m ↔ ∃ v, m.lookup k = some v := by
  rw [← AList.lookup_isSome, Option.isSome_iff_exists]

theorem exists_lookup_of_ne_empty (h : m ≠ ∅) : ∃ k v, m.lookup k = some v := by
  cases he : m.entries with
  | nil => exact absurd (AList.ext he) h
  | cons e es => exact ⟨e.1, e.2, (lookup_eq_some_iff m).mpr (by simp [he])⟩

/-! ## Sizes -/

theorem size_erase_of_mem (h : k ∈ m) : size (m.erase k) + 1 = m.size := by
  have hk : k ∈ m.keys := AList.mem_keys.mp h
  have hl : (m.erase k).keys.length = m.keys.length - 1 := by
    rw [AList.keys_erase, List.length_erase_of_mem hk]
  have hpos : 0 < m.keys.length := List.length_pos_of_mem hk
  simp only [AList.keys, List.keys, List.length_map] at hl hpos
  unfold size
  omega

theorem size_insert_of_mem (h : k ∈ m) : size (m.insert k v) = m.size := size_erase_of_mem m h

theorem size_insert_of_notMem (h : k ∉ m) : size (m.insert k v) = m.size + 1 := by
  unfold size
  rw [AList.entries_insert_of_notMem h, List.length_cons]

theorem perm_erase (h : m.lookup k = some v) : m.entries.Perm (⟨k, v⟩ :: (m.erase k).entries) := by
  unfold AList.lookup at h
  unfold AList.erase
  dsimp only
  revert h
  induction m.entries with
  | nil => intro h; cases h
  | cons e l ih =>
    intro h
    by_cases he : k = e.1
    · obtain ⟨k', v'⟩ := e
      subst he
      rw [List.dlookup_cons_eq] at h
      cases h
      have hk : k = (⟨k, v⟩ : Sigma fun _ : K => V).1 := rfl
      rw [List.kerase_cons_eq hk]
    rw [List.dlookup_cons_ne _ _ he] at h
    rw [List.kerase_cons_ne he]
    exact ((ih h).cons e).trans (List.Perm.swap _ _ _)

theorem total_erase (h : m.lookup k = some v) (f : V → Nat) : total (m.erase k) f + f v = m.total f := by
  have hp := ((m.perm_erase h).map fun e => f e.2).sum_eq
  rw [List.map_cons, List.sum_cons] at hp
  exact (Nat.add_comm _ _).trans hp.symm

theorem total_insert (h : m.lookup k = some v) (v' : V) (f : V → Nat) :
    total (m.insert k v') f + f v = m.total f + f v' := by
  have he := total_erase m h f
  have hi : total (m.insert k v') f = f v' + total (m.erase k) f := by
    unfold total
    rw [AList.entries_insert, List.map_cons, List.sum_cons]
    rfl
  omega

end

end HashMap
