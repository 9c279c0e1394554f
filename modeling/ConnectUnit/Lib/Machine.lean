import Mathlib.Logic.Function.Basic

/-!
# Runs of a step function

A machine is a function `step : σ → α → σ × List ω`: the state after an action and what the action emits.
-/

namespace Machine

variable {i : Nat}

section
variable {σ α ω : Type} (step : σ → α → σ × List ω) (s : σ) (as : List α)
variable {a : α} {ok : σ → α → Prop} {P B : σ → Prop}

def run : σ := as.foldl (fun s a => (step s a).1) s

def stateAt (i : Nat) : σ := run step s (as.take i)

def emitAt (i : Nat) : List ω :=
  match as[i]? with
  | some a => (step (stateAt step s as i) a).2
  | none => []

/-- Every action of the run meets `ok` in the state it is taken in. -/
def Each (ok : σ → α → Prop) : Prop :=
  ∀ i a, as[i]? = some a → ok (stateAt step s as i) a

@[simp] theorem stateAt_zero : stateAt step s as 0 = s := rfl

theorem stateAt_succ (h : as[i]? = some a) : stateAt step s as (i + 1) = (step (stateAt step s as i) a).1 := by
  unfold stateAt run
  rw [List.take_add_one, h]
  simp

theorem stateAt_succ_of_none (h : as[i]? = none) : stateAt step s as (i + 1) = stateAt step s as i := by
  unfold stateAt
  rw [List.take_add_one, h]
  simp

theorem emitAt_mem {w : ω} (h : w ∈ emitAt step s as i) :
    ∃ a, as[i]? = some a ∧ w ∈ (step (stateAt step s as i) a).2 := by
  unfold emitAt at h
  split at h
  · rename_i a ha; exact ⟨a, ha, h⟩
  cases h

/-- All that a run emits, in order. -/
def trace (s : σ) : List α → List ω
  | [] => []
  | a :: as => (step s a).2 ++ trace (step s a).1 as

theorem trace_append {as bs : List α} :
    trace step s (as ++ bs) = trace step s as ++ trace step (run step s as) bs := by
  induction as generalizing s with
  | nil => rfl
  | cons a as ih =>
    show (step s a).2 ++ trace step (step s a).1 (as ++ bs) = _
    rw [ih, ← List.append_assoc]
    rfl

theorem trace_take_succ (h : as[i]? = some a) :
    trace step s (as.take (i + 1)) = trace step s (as.take i) ++ (step (stateAt step s as i) a).2 := by
  rw [List.take_add_one, h, trace_append]
  exact congrArg _ (List.append_nil _)

/-! ## Invariants -/

variable {step s as}

theorem each_cons : Each step s (a :: as) ok ↔ ok s a ∧ Each step (step s a).1 as ok := by
  constructor
  · intro h
    exact ⟨h 0 a rfl, fun i b hb => h (i + 1) b hb⟩
  intro h i b hb
  cases i with
  | zero => exact Option.some.inj hb ▸ h.1
  | succ i => exact h.2 i b hb

instance Each.decidable {ok : σ → α → Prop} [∀ s a, Decidable (ok s a)] :
    ∀ (as : List α) (s : σ), Decidable (Each step s as ok)
  | [], _ => .isTrue fun _ _ h => by cases h
  | a :: as, s =>
    have : Decidable (Each step (step s a).1 as ok) := Each.decidable as _
    decidable_of_iff (ok s a ∧ Each step (step s a).1 as ok) each_cons.symm

theorem Each.take (h : Each step s as ok) (i : Nat) : Each step s (as.take i) ok := by
  intro k a ha
  have hk : k < i := by
    by_contra hk
    rw [List.getElem?_eq_none (Nat.le_trans (List.length_take_le i as) (Nat.le_of_not_lt hk))] at ha
    cases ha
  rw [List.getElem?_take_of_lt hk] at ha
  have hs : stateAt step s (as.take i) k = stateAt step s as k := by
    unfold stateAt
    rw [List.take_take, Nat.min_eq_left (Nat.le_of_lt hk)]
  rw [hs]
  exact h k a ha

theorem invariant (h0 : P s) (hs : ∀ s a, ok s a → P s → P (step s a).1) (hok : Each step s as ok) : ∀ i, P
    (stateAt step s as i) := by
  intro i
  induction i with
  | zero => exact h0
  | succ i ih =>
    cases h : as[i]? with
    | none => rw [stateAt_succ_of_none step s as h]; exact ih
    | some a => rw [stateAt_succ step s as h]; exact hs _ a (hok i a h) ih

theorem invariant_all (h0 : P s) (hs : ∀ s a, P s → P (step s a).1) : ∀ i, P (stateAt step s as i) := by
  have hok : Each step s as fun _ _ => True := fun _ _ _ => trivial
  exact invariant h0 (fun s a _ => hs s a) hok

theorem run_invariant (h0 : P s) (hs : ∀ s a, P s → P (step s a).1) {as : List α} : P (run step s as) := by
  have h : P (stateAt step s as as.length) := invariant_all h0 hs as.length
  rwa [stateAt, List.take_length] at h

theorem trace_invariant {I : σ → List ω → Prop}
    (hs : ∀ s log a, ok s a → I s log → I (step s a).1 (log ++ (step s a).2)) (h0 : I s [])
    (hok : Each step s as ok) : I (run step s as) (trace step s as) := by
  have hfrom : ∀ log, I s log → I (run step s as) (log ++ trace step s as) := by
    clear h0
    induction as generalizing s with
    | nil =>
      intro log h
      rw [trace, List.append_nil]
      exact h
    | cons a as ih =>
      intro log h
      rw [trace, ← List.append_assoc]
      exact ih (fun i b hb => hok (i + 1) b hb) _ (hs s log a (hok 0 a rfl) h)
  exact hfrom [] h0

theorem always_iff_each {C I : σ → Prop} (h0 : C s) (hinv : ∀ i, I (stateAt step s as i))
    (hstep : ∀ s a, I s → C s → (C (step s a).1 ↔ ok s a)) : (∀ i, C (stateAt step s as i)) ↔ Each step s as ok := by
  constructor
  · intro hC i a ha
    have := hC (i + 1)
    rw [stateAt_succ step s as ha] at this
    exact (hstep _ a (hinv i) (hC i)).mp this
  intro hok i
  induction i with
  | zero => exact h0
  | succ i ih =>
    cases h : as[i]? with
    | none => rw [stateAt_succ_of_none step s as h]; exact ih
    | some a => rw [stateAt_succ step s as h]; exact (hstep _ a (hinv i) ih).mpr (hok i a h)

/-! ## From one action to a later one -/

theorem persists {j : Nat} (hij : i < j) (hi : B (stateAt step s as (i + 1)))
    (hkeep : ∀ k a, i < k → k < j → as[k]? = some a → B (stateAt step s as k) → B (step (stateAt step s as k) a).1) :
    B (stateAt step s as j) := by
  induction j with
  | zero => omega
  | succ j ih =>
    rcases Nat.lt_or_ge i j with h | h
    · have hj := ih h fun k a hk hkj => hkeep k a hk (by omega)
      cases ha : as[j]? with
      | none => rw [stateAt_succ_of_none step s as ha]; exact hj
      | some a => rw [stateAt_succ step s as ha]; exact hkeep j a h (by omega) ha hj
    have : i = j := by omega
    subst this; exact hi

theorem exists_break {j : Nat} (hij : i < j) (hi : B (stateAt step s as (i + 1))) (hj : ¬ B (stateAt step s as j)) : ∃
    k a, i < k ∧ k < j ∧ as[k]? = some a ∧ B (stateAt step s as k) ∧ ¬ B (step (stateAt step s as k) a).1 := by
  refine Classical.byContradiction fun hn => hj (persists hij hi fun k a hk hkj ha hB => ?_)
  exact Classical.byContradiction fun hB' => hn ⟨k, a, hk, hkj, ha, hB, hB'⟩

end

/-! ## Loops over a list -/

section
variable {σ α : Type} {R : σ → σ → Prop} {f : σ → α → σ}

theorem foldl_rel (hrefl : ∀ s, R s s) (htrans : ∀ s t u, R s t → R t u → R s u) (hstep : ∀ s a, R s (f s a))
    (l : List α) (s : σ) : R s (l.foldl f s) := by
  induction l generalizing s with
  | nil => exact hrefl s
  | cons a l ih => exact htrans _ _ _ (hstep s a) (ih (f s a))

theorem foldl_rel_of_guard {G : σ → α → Prop} (hrefl : ∀ s, R s s) (htrans : ∀ s t u, R s t → R t u → R s u)
    (hstep : ∀ s a, G s a → R s (f s a)) (hframe : ∀ s a b, b ≠ a → G s b → G (f s a) b) (l : List α)
    (hnd : l.Nodup) (s : σ) (hG : ∀ a ∈ l, G s a) : R s (l.foldl f s) := by
  induction l generalizing s with
  | nil => exact hrefl s
  | cons a l ih =>
    obtain ⟨ha, hl⟩ := List.nodup_cons.mp hnd
    refine htrans _ _ _ (hstep s a (hG a List.mem_cons_self)) (ih hl (f s a) fun b hb => ?_)
    exact hframe s a b (fun he => ha (he ▸ hb)) (hG b (List.mem_cons_of_mem a hb))

end

/-! ## Interleaved members -/

section
variable {ι σ α ω : Type} [DecidableEq ι]
variable {m : ι} {step : σ → α → σ × List ω} {sys : ι → σ}

/-- Several copies of a machine that take turns: an action names the member that takes it. -/
def interleave (step : σ → α → σ × List ω) (sys : ι → σ) (a : ι × α) : (ι → σ) × List (ι × ω) :=
  let r := step (sys a.1) a.2
  (Function.update sys a.1 r.1, r.2.map (a.1, ·))

theorem interleave_self {a : α} : (interleave step sys (m, a)).1 m = (step (sys m) a).1 := by
  simp [interleave]

theorem interleave_other {m' : ι} (h : m' ≠ m) {a : α} : (interleave step sys (m, a)).1 m' = sys m' := by
  simp [interleave, h]

theorem interleave_member {B : σ → Prop} {a : ι × α}
    (hB : B (sys m)) (hs : a.1 = m → B (step (sys m) a.2).1) : B ((interleave step sys a).1 m) := by
  obtain ⟨m', a⟩ := a
  by_cases h : m' = m
  · subst h; rw [interleave_self]; exact hs rfl
  rw [interleave_other (Ne.symm h)]; exact hB

theorem mem_interleave {a : ι × α} {w : ω}
    (h : (m, w) ∈ (interleave step sys a).2) : m = a.1 ∧ w ∈ (step (sys a.1) a.2).2 := by
  simp only [interleave, List.mem_map, Prod.mk.injEq] at h
  obtain ⟨w', hw', rfl, rfl⟩ := h
  exact ⟨rfl, hw'⟩

end

/-! ## Simulation -/

section
variable {σ σ' α α' ω ω' : Type} {step : σ → α → σ × List ω} {step' : σ' → α' → σ' × List ω'}
  {abs : σ → σ'} {mv : σ → α → α'} {obs : ω → Option ω'}
variable {s : σ} {as : List α}

/-- Each action is seen by the second machine as the move that `mv` reads off it in the current state. -/
structure Simulates (step : σ → α → σ × List ω) (step' : σ' → α' → σ' × List ω') (abs : σ → σ')
    (mv : σ → α → α') (obs : ω → Option ω') : Prop where
  state : ∀ s a, abs (step s a).1 = (step' (abs s) (mv s a)).1
  emit : ∀ s a, (step s a).2.filterMap obs = (step' (abs s) (mv s a)).2

/-- The moves that a run of the first machine makes on the second. -/
def moves (step : σ → α → σ × List ω) (mv : σ → α → α') (s : σ) : List α → List α'
  | [] => []
  | a :: as => mv s a :: moves step mv (step s a).1 as

theorem stateAt_cons {a : α} : stateAt step s (a :: as) (i + 1) = stateAt step (step s a).1 as i := rfl

theorem getElem?_moves : (moves step mv s as)[i]? = (as[i]?).map (mv (stateAt step s as i)) := by
  induction as generalizing s i with
  | nil => rfl
  | cons a as ih =>
    cases i with
    | zero => rfl
    | succ i => simp only [moves, List.getElem?_cons_succ, ih, stateAt_cons]

theorem exists_of_moves {m : α'} (h : (moves step mv s as)[i]? = some m) :
    ∃ a, as[i]? = some a ∧ mv (stateAt step s as i) a = m := by
  rw [getElem?_moves] at h
  exact Option.map_eq_some_iff.mp h

theorem moves_of_getElem? {a : α} (h : as[i]? = some a) :
    (moves step mv s as)[i]? = some (mv (stateAt step s as i) a) := by
  rw [getElem?_moves, h]; rfl

namespace Simulates

variable (h : Simulates step step' abs mv obs)
include h

theorem stateAt (s : σ) (as : List α) (i : Nat) :
    stateAt step' (abs s) (moves step mv s as) i = abs (Machine.stateAt step s as i) := by
  induction as generalizing s i with
  | nil => simp [moves, Machine.stateAt, run]
  | cons a as ih =>
    cases i with
    | zero => rfl
    | succ i => rw [moves, stateAt_cons, stateAt_cons, ← h.state, ih]

theorem emitAt (s : σ) (as : List α) (i : Nat) :
    emitAt step' (abs s) (moves step mv s as) i = (Machine.emitAt step s as i).filterMap obs := by
  unfold Machine.emitAt
  rw [getElem?_moves, h.stateAt]
  cases as[i]? with
  | none => rfl
  | some a => exact (h.emit _ a).symm

theorem mem_emitAt {w : ω} {w' : ω'} (hw : w ∈ Machine.emitAt step s as i)
    (ho : obs w = some w') : w' ∈ Machine.emitAt step' (abs s) (moves step mv s as) i := by
  rw [h.emitAt]
  exact List.mem_filterMap.mpr ⟨w, hw, ho⟩

end Simulates

end

end Machine
