import Mathlib.Data.List.MinMax

/-!
# Searches that change a state

A search tries one place after another; each try may change the state, whether it finds something or not, and the
first find ends the search.
-/

namespace Search

section
variable {σ ι β : Type}
variable {r : σ × Option β} {try' : σ → ι → σ × Option β} {s : σ} {l : List ι}
variable {next : σ → σ × Option β}

def orElse (r : σ × Option β) (next : σ → σ × Option β) : σ × Option β :=
  match r.2 with
  | some b => (r.1, some b)
  | none => next r.1

theorem orElse_none : orElse (s, none) next = next s := rfl

theorem orElse_of_none (h : r.2 = none) : orElse r next = next r.1 := by
  unfold orElse
  rw [h]

theorem orElse_some {b : β} (h : r.2 = some b) : orElse r next = r := by
  unfold orElse
  rw [h]
  exact Prod.ext rfl h.symm

def untilSome (try' : σ → ι → σ × Option β) : List ι → σ → σ × Option β
  | [], s => (s, none)
  | i :: is, s => orElse (try' s i) (untilSome try' is)

def Outcome (I : σ → Prop) (Q : σ → β → Prop) (r : σ × Option β) : Prop :=
  match r.2 with
  | some b => Q r.1 b
  | none => I r.1

variable {I : σ → Prop} {Q : σ → β → Prop} {r : σ × Option β} {next : σ → σ × Option β}

theorem Outcome.of_none (h : Outcome I Q r) (hr : r.2 = none) : I r.1 := by
  unfold Outcome at h
  rw [hr] at h
  exact h

theorem Outcome.of_some (h : Outcome I Q r) {b : β} (hr : r.2 = some b) : Q r.1 b := by
  unfold Outcome at h
  rw [hr] at h
  exact h

theorem Outcome.orElse {I' : σ → Prop} (h : Outcome I' Q r) (hnext : ∀ s, I' s → Outcome I Q (next s)) :
    Outcome I Q (orElse r next) := by
  unfold Search.orElse
  cases hr : r.2 with
  | some b => exact h.of_some hr
  | none => exact hnext r.1 (h.of_none hr)

theorem orElse_fst (h : I r.1) (hnext : ∀ s, I s → I (next s).1) : I (orElse r next).1 := by
  unfold Search.orElse
  cases r.2 with
  | some b => exact h
  | none => exact hnext r.1 h

theorem untilSome_fst (htry : ∀ s i, I s → I (try' s i).1) (h : I s) : I (untilSome try' l s).1 := by
  induction l generalizing s with
  | nil => exact h
  | cons i l ih => exact orElse_fst (htry s i h) fun _ hs => ih hs

theorem Outcome.untilSome_left {I : Nat → σ → Prop} (htry : ∀ n s i, I (n + 1) s → Outcome (I n) Q (try' s i))
    (h : I l.length s) : Outcome (I 0) Q (untilSome try' l s) := by
  induction l generalizing s with
  | nil => exact h
  | cons i l ih => exact (htry l.length s i h).orElse fun s hs => ih hs

theorem Outcome.untilSome (htry : ∀ s i, I s → Outcome I Q (try' s i)) (h : I s) : Outcome I Q (untilSome try' l s) :=
  Outcome.untilSome_left (I := fun _ => I) (fun _ s i hs => htry s i hs) h

theorem untilSome_snd (h : ∀ i, (try' s i).2 = none → (try' s i).1 = s) : (untilSome try' l s).2 =
    l.findSome? fun i => (try' s i).2 := by
  induction l with
  | nil => rfl
  | cons i l ih =>
    unfold untilSome Search.orElse
    rw [List.findSome?_cons]
    cases hi : (try' s i).2 with
    | some b => rfl
    | none =>
      rw [h i hi]
      exact ih

end

section
variable {α β : Type} [LinearOrder β] {s : α → β} {f : Option α → α → Option α} (hnone : ∀ c, f none c = some c)
  (hsome : ∀ b c, f (some b) c = if s c < s b then some b else some c)
include hnone hsome

variable {o : Option α} {l : List α}

theorem foldl_eq_none (h : l.foldl f o = none) : l = [] ∧ o = none := by
  induction l generalizing o with
  | nil => exact ⟨rfl, h⟩
  | cons c l ih =>
    obtain ⟨_, hc⟩ := ih h
    cases o with
    | none => rw [hnone] at hc; cases hc
    | some b => rw [hsome] at hc; split at hc <;> cases hc

theorem foldl_greatest {x : α} (h : l.foldl f o = some x) :
    (x ∈ l ∨ o = some x) ∧ (∀ y ∈ l, s y ≤ s x) ∧ ∀ b, o = some b → s b ≤ s x := by
  induction l generalizing o with
  | nil => exact ⟨.inr h, nofun, fun b hb => by cases hb.symm.trans h; exact le_refl _⟩
  | cons c l ih =>
    obtain ⟨hmem, hrest, hfirst⟩ := ih h
    cases o with
    | none =>
      rw [hnone] at hmem hfirst
      refine ⟨.inl ?_, List.forall_mem_cons.mpr ⟨hfirst c rfl, hrest⟩, nofun⟩
      rcases hmem with hmem | hmem
      · exact .tail _ hmem
      cases hmem
      exact .head _
    | some b =>
      rw [hsome] at hmem hfirst
      split at hmem
      · rename_i hlt
        rw [if_pos hlt] at hfirst
        refine ⟨hmem.imp_left (.tail _), List.forall_mem_cons.mpr ⟨hlt.le.trans (hfirst b rfl), hrest⟩, ?_⟩
        rintro _ ⟨⟩
        exact hfirst b rfl
      rename_i hge
      rw [if_neg hge] at hfirst
      refine ⟨.inl ?_, List.forall_mem_cons.mpr ⟨hfirst c rfl, hrest⟩, ?_⟩
      · rcases hmem with hmem | hmem
        · exact .tail _ hmem
        · cases hmem
          exact .head _
      rintro _ ⟨⟩
      exact (not_lt.mp hge).trans (hfirst c rfl)

end

theorem argmax_eq_of_perm {α β : Type} [LinearOrder β] {f : α → β} {l l' : List α} (hp : l.Perm l')
    (hf : ∀ a ∈ l, ∀ b ∈ l, f a = f b → a = b) : l.argmax f = l'.argmax f := by
  cases h : l.argmax f with
  | none =>
    rw [List.argmax_eq_none] at h
    subst h
    rw [hp.nil_eq.symm, List.argmax_nil]
  | some m =>
    cases h' : l'.argmax f with
    | none =>
      rw [List.argmax_eq_none] at h'
      subst h'
      exact absurd (List.argmax_mem h) (hp.eq_nil ▸ List.not_mem_nil)
    | some m' =>
      have hm : m ∈ l := List.argmax_mem h
      have hm' : m' ∈ l := hp.mem_iff.mpr (List.argmax_mem h')
      have hle : f m' ≤ f m := List.le_of_mem_argmax hm' h
      have hge : f m ≤ f m' := List.le_of_mem_argmax (hp.mem_iff.mp hm) h'
      rw [hf m hm m' hm' (le_antisymm hge hle)]

end Search
