import ConnectUnit.ConfigStore

/-!
# Updates, edits and deletion of the configuration

The fingerprint is set one step after the file has been renamed into place.
-/

open Machine (Each persists run stateAt_succ)

namespace ConnectUnit.ConfigStore

section
variable {α π ρ : Type} (toml : Toml α π ρ)
variable {disk live default : NetworkConfig α π} {file : Option ρ} {updater : NetworkConfig α π → NetworkConfig α π}
variable {e : Event α π ρ} {as : List (Event α π ρ)}

def ConfigManager.Known (m : ConfigManager α π ρ) : Prop :=
  ∀ raw, m.file = some raw → m.diskFp = some (toml.contentFingerprint raw)

def ConfigManager.found (m : ConfigManager α π ρ) : Option (NetworkConfig α π) := do
  let raw ← m.file
  if m.diskFp = some (toml.contentFingerprint raw) then none else toml.parse raw

variable {toml} {m : ConfigManager α π ρ}

theorem found_eq_some_iff : m.found toml = some disk ↔
    ∃ raw, m.file = some raw ∧ m.diskFp ≠ some (toml.contentFingerprint raw) ∧ toml.parse raw = some disk := by
  unfold ConfigManager.found
  rw [Option.bind_eq_bind, Option.bind_eq_some_iff]
  refine exists_congr fun raw => and_congr_right fun _ => ?_
  by_cases h : m.diskFp = some (toml.contentFingerprint raw)
  · rw [if_pos h]
    exact ⟨nofun, fun h' => absurd h h'.1⟩
  rw [if_neg h]
  exact ⟨fun hd => ⟨h, hd⟩, And.right⟩

theorem absorb_of_found (h : m.found toml = some disk) (live : NetworkConfig α π) : ∃ raw, m.file = some raw ∧
    absorbExternalPerformance toml m.file m.diskFp live = some
    (live.mergePerformanceFrom disk, some (toml.contentFingerprint raw)) := by
  obtain ⟨raw, hf, hfp, hd⟩ := found_eq_some_iff.mp h
  refine ⟨raw, hf, ?_⟩
  unfold absorbExternalPerformance
  rw [hf]
  dsimp only
  rw [if_neg hfp, hd]
  rfl

theorem absorb_of_known (h : m.Known toml) :
    absorbExternalPerformance toml m.file m.diskFp live = some (live, m.diskFp) := by
  unfold absorbExternalPerformance
  cases hf : m.file with
  | none => rfl
  | some raw => exact if_pos (h raw hf)

theorem absorb_eq_some {r : NetworkConfig α π × Option UInt64}
    (h : absorbExternalPerformance toml m.file m.diskFp live = some r) :
    r.1 = live ∨ ∃ disk, m.found toml = some disk ∧ r.1 = live.mergePerformanceFrom disk := by
  cases hd : m.found toml with
  | some disk =>
    obtain ⟨raw, -, hr⟩ := absorb_of_found hd live
    rw [← Option.some.inj (hr.symm.trans h)]
    exact .inr ⟨disk, rfl, rfl⟩
  | none =>
    unfold absorbExternalPerformance at h
    split at h
    · exact .inl (congrArg Prod.fst (Option.some.inj h)).symm
    rename_i raw hf
    split at h
    · exact .inl (congrArg Prod.fst (Option.some.inj h)).symm
    rename_i hfp
    obtain ⟨disk, hp, -⟩ := Option.map_eq_some_iff.mp h
    exact (nomatch hd.symm.trans (found_eq_some_iff.mpr ⟨raw, hf, hfp, hp⟩))

variable (toml m) in
theorem update_inner : (m.update toml updater).inner = updater
    m.inner ∨ ∃ disk, m.found toml = some disk ∧ (m.update toml updater).inner = updater
    (m.inner.mergePerformanceFrom disk) := by
  unfold ConfigManager.update
  cases h : absorbExternalPerformance toml m.file m.diskFp m.inner with
  | none => exact .inl rfl
  | some r =>
    rcases absorb_eq_some h with hr | ⟨disk, hd, hr⟩
    · exact .inl (congrArg updater hr)
    exact .inr ⟨disk, hd, congrArg updater hr⟩

theorem update_known (h : m.Known toml) : (m.update toml updater).Known toml := by
  intro raw hf
  show ((absorbExternalPerformance toml m.file m.diskFp m.inner).getD (m.inner, m.diskFp)).2 = _
  rw [absorb_of_known h]
  exact h raw hf

theorem merge_of_performance_eq (h : disk.performance = live.performance) :
    live.mergePerformanceFrom disk = live := by
  unfold NetworkConfig.mergePerformanceFrom
  rw [h]

/-! ## Reloading -/

theorem reload_performance {m' : ConfigManager α π ρ} (h : m.reloadPerformanceFromDisk toml = some m') :
    ∃ raw disk, m.file = some raw ∧ toml.parse raw = some disk ∧
      m'.inner = m.inner.mergePerformanceFrom disk ∧ m'.saveQueue = m.saveQueue ++ [m'.inner] := by
  unfold ConfigManager.reloadPerformanceFromDisk at h
  obtain ⟨raw, hf, h⟩ := Option.bind_eq_some_iff.mp h
  obtain ⟨disk, hd, h⟩ := Option.bind_eq_some_iff.mp h
  cases h
  refine ⟨raw, disk, hf, hd, ?_, rfl⟩
  -- the fingerprint was set first, so the update finds nothing
  have hk : ConfigManager.Known toml { m with diskFp := some (toml.contentFingerprint raw) } := by
    intro raw' hf'
    rw [Option.some.inj (hf.symm.trans hf')]
  show NetworkConfig.mergePerformanceFrom
    ((absorbExternalPerformance toml m.file (some (toml.contentFingerprint raw)) m.inner).getD
      (m.inner, some (toml.contentFingerprint raw))).1 disk = _
  rw [absorb_of_known hk]
  rfl

theorem load_known (h : (ConfigManager.new default file).load toml = some m) : m.Known toml ∧ m.saver = .idle ∧
    m.saveQueue = [] := by
  unfold ConfigManager.load at h
  split at h
  · rename_i hf
    cases h
    exact ⟨fun raw hr => (nomatch hf.symm.trans hr), rfl, rfl⟩
  rename_i raw hf
  obtain ⟨cfg, -, rfl⟩ := Option.map_eq_some_iff.mp h
  refine ⟨fun raw' hr => ?_, rfl, rfl⟩
  rw [Option.some.inj (hf.symm.trans hr)]

/-! ## No update is lost -/

/-- The steps of the program itself. -/
def Event.Internal : Event α π ρ → Prop
  | .update _ | .save => True
  | .edit _ | .clearInner _ | .deleteFile => False

/-- Between the rename and the fingerprint, an update runs only if the file just written has the performance fields
  that are live. -/
def Event.OutsideWindow (toml : Toml α π ρ) (m : ConfigManager α π ρ) : Event α π ρ → Prop
  | .update _ =>
    match m.saver with
    | .renamed raw => ∀ disk ∈ toml.parse raw, disk.performance = m.inner.performance
    | _ => True
  | _ => True

instance (toml : Toml α π ρ) [DecidableEq π] (m : ConfigManager α π ρ) (e : Event α π ρ) :
    Decidable (e.OutsideWindow toml m) := by
  unfold Event.OutsideWindow
  split
  · split <;> infer_instance
  infer_instance

variable (toml m) in
structure Synced : Prop where
  renamed : ∀ raw raw', m.saver = .renamed raw → m.file = some raw' → raw = raw'
  known : (∀ raw, m.saver ≠ .renamed raw) → m.Known toml

theorem Synced.update_inner (h : Synced toml m)
    (hw : Event.OutsideWindow toml m (.update updater)) : (m.update toml updater).inner = updater m.inner := by
  rcases ConfigStore.update_inner toml m with hu | ⟨disk, hd, hu⟩
  · exact hu
  obtain ⟨raw, hf, hfp, hd⟩ := found_eq_some_iff.mp hd
  by_cases hr : ∃ raw', m.saver = .renamed raw'
  · obtain ⟨raw', hr⟩ := hr
    have he : raw' = raw := h.renamed raw' raw hr hf
    simp only [Event.OutsideWindow, hr] at hw
    rw [hu, merge_of_performance_eq (hw disk (he ▸ hd))]
  · exact absurd (h.known (fun raw' hr' => hr ⟨raw', hr'⟩) raw hf) hfp

theorem Synced.update (h : Synced toml m) : Synced toml (m.update toml updater) :=
  ⟨h.renamed, fun hs => update_known (h.known hs)⟩

theorem Synced.save (h : Synced toml m) : Synced toml (m.save toml) := by
  unfold ConfigManager.save
  cases hs : m.saver with
  | idle =>
    have hk := h.known (by rw [hs]; nofun)
    cases hq : m.saveQueue with
    | nil => exact h
    | cons pending rest => exact ⟨nofun, fun _ => hk⟩
  | collecting pending =>
    have hk := h.known (by rw [hs]; nofun)
    cases hq : m.saveQueue with
    | nil => exact ⟨nofun, fun _ => hk⟩
    | cons next rest => exact ⟨nofun, fun _ => hk⟩
  | collected pending =>
    have hk := h.known (by rw [hs]; nofun)
    dsimp only
    rw [absorb_of_known hk]
    exact ⟨nofun, fun _ => hk⟩
  | absorbed pending =>
    refine ⟨fun raw raw' hr hf => ?_, fun hn => absurd rfl (hn _)⟩
    cases hr
    cases hf
    rfl
  | renamed raw =>
    refine ⟨nofun, fun _ raw' hf => ?_⟩
    rw [← h.renamed raw raw' hs hf]

theorem Synced.step (h : Synced toml m) (he : e.Internal) : Synced toml (m.step toml e).1 := by
  cases e with
  | update updater => exact h.update
  | save => exact h.save
  | edit | clearInner | deleteFile => cases he

variable (toml m) in
def Latest : Prop :=
  match m.saveQueue.getLast? with
  | some cfg => cfg = m.inner
  | none =>
    match m.saver with
    | .idle => m.file = some (toml.encode m.inner)
    | .collecting pending | .collected pending | .absorbed pending => pending = m.inner
    | .renamed _ => m.file = some (toml.encode m.inner)

theorem latest_update : Latest toml (m.update toml updater) := by
  unfold Latest ConfigManager.update
  simp only [List.getLast?_append, List.getLast?_singleton, Option.some_or]

theorem Latest.of_pop (h : Latest toml m) {next : NetworkConfig α π} {rest : List (NetworkConfig α π)}
    (hq : m.saveQueue = next :: rest) :
    Latest toml { m with saveQueue := rest, saver := .collecting next } := by
  unfold Latest at h ⊢
  rw [hq, List.getLast?_cons] at h
  dsimp only at h ⊢
  cases hr : rest.getLast? with
  | none => rw [hr] at h; exact h
  | some cfg => rw [hr] at h; exact h

theorem Latest.save (h : Latest toml m) (hs : Synced toml m) : Latest toml (m.save toml) := by
  unfold ConfigManager.save
  cases hv : m.saver with
  | idle =>
    cases hq : m.saveQueue with
    | nil => exact h
    | cons pending rest => exact h.of_pop hq
  | collecting pending =>
    cases hq : m.saveQueue with
    | nil =>
      unfold Latest at h ⊢
      rw [hq, hv] at h
      exact h
    | cons next rest => exact h.of_pop hq
  | collected pending =>
    have hk := hs.known (by rw [hv]; nofun)
    dsimp only
    rw [absorb_of_known hk]
    unfold Latest at h ⊢
    rw [hv] at h
    exact h
  | absorbed pending =>
    unfold Latest at h ⊢
    rw [hv] at h
    dsimp only at h ⊢
    cases hq : m.saveQueue.getLast? with
    | none => rw [hq] at h; exact congrArg (some <| toml.encode ·) h
    | some cfg => rw [hq] at h; exact h
  | renamed raw =>
    unfold Latest at h ⊢
    rw [hv] at h
    dsimp only at h ⊢
    cases hq : m.saveQueue.getLast? with
    | none => rw [hq] at h; exact h
    | some cfg => rw [hq] at h; exact h

theorem Latest.step (h : Latest toml m) (hs : Synced toml m) (he : e.Internal) : Latest toml (m.step toml e).1 := by
  cases e with
  | update updater => exact latest_update
  | save => exact h.save hs
  | edit | clearInner | deleteFile => cases he

/-- The states of a run. -/
abbrev stateAt (toml : Toml α π ρ) (m : ConfigManager α π ρ) (as : List (Event α π ρ)) (i : Nat) :
    ConfigManager α π ρ :=
  Machine.stateAt (ConfigManager.step toml) m as i

theorem synced_stateAt (hl : (ConfigManager.new default file).load toml = some m) (hi : ∀ e ∈ as, e.Internal)
    {i : Nat} : Synced toml (stateAt toml m as i) := by
  obtain ⟨hk, hs, -⟩ := load_known hl
  have h0 : Synced toml m := ⟨fun raw _ hr => (nomatch hs.symm.trans hr), fun _ => hk⟩
  have hok : Each (ConfigManager.step toml) m as fun _ e => e.Internal :=
    fun i e he => hi e (List.mem_of_getElem? he)
  exact Machine.invariant h0 (fun m e he h => h.step he) hok i

theorem no_update_lost (hl : (ConfigManager.new default file).load toml = some m) (hi : ∀ e ∈ as, e.Internal)
    (hw : Each (ConfigManager.step toml) m as (Event.OutsideWindow toml)) {i : Nat}
    (hu : as[i]? = some (.update updater)) : (stateAt toml m as (i + 1)).inner = updater (stateAt toml m as i).inner ∧
    ∀ j, i < j → (stateAt toml m as j).saver = .idle → (stateAt toml m as j).saveQueue = [] →
    (stateAt toml m as j).file = some (toml.encode (stateAt toml m as j).inner) := by
  constructor
  · rw [stateAt, stateAt_succ _ _ _ hu]
    exact (synced_stateAt hl hi).update_inner (hw i _ hu)
  intro j hij hs hq
  have hlast : Latest toml (stateAt toml m as j) := by
    refine persists hij ?_ fun k e _ _ hk h => ?_
    · rw [stateAt_succ _ _ _ hu]
      exact latest_update
    exact h.step (synced_stateAt hl hi) (hi e (List.mem_of_getElem? hk))
  unfold Latest at hlast
  rw [hq, hs] at hlast
  exact hlast

end

/-! ## A format of pairs -/

/-- The contents are the configuration itself. -/
def plainToml : Toml Nat Nat (NetworkConfig Nat Nat) where
  encode cfg := cfg
  parse := some
  contentFingerprint cfg := UInt64.ofNat (cfg.identity + 256 * cfg.performance)

theorem plainToml_keepsPerformance : plainToml.KeepsPerformance := fun cfg => ⟨cfg, rfl, rfl⟩

def setPerformance (p : Nat) : Event Nat Nat (NetworkConfig Nat Nat) := .update ({ · with performance := p })

/-- One that leaves them alone. -/
def setIdentity (a : Nat) : Event Nat Nat (NetworkConfig Nat Nat) := .update ({ · with identity := a })

def firstRun : ConfigManager Nat Nat (NetworkConfig Nat Nat) := .new ⟨0, 0⟩ none

/-- A second update while the first is collected. -/
def twoUpdates : List (Event Nat Nat (NetworkConfig Nat Nat)) :=
  [setPerformance 1, .save, setPerformance 2, .save, .save, .save, .save, .save]

theorem twoUpdates_not_lost : (stateAt plainToml firstRun twoUpdates 3).inner = ⟨0, 2⟩ ∧
    (stateAt plainToml firstRun twoUpdates 8).file = some ⟨0, 2⟩ := by
  have hl : (ConfigManager.new ⟨0, 0⟩ none).load plainToml = some firstRun := rfl
  have hi : ∀ e ∈ twoUpdates, e.Internal := by simp [twoUpdates, setPerformance, Event.Internal]
  have hu : twoUpdates[2]? = some (setPerformance 2) := rfl
  have h := no_update_lost hl hi (by decide) hu
  exact ⟨h.1, h.2 8 (by decide) rfl rfl⟩

theorem update_undone : plainToml.KeepsPerformance ∧ ∃ as : List (Event Nat Nat (NetworkConfig Nat Nat)),
    (∀ e ∈ as, e.Internal) ∧ ∃ i a, as[i]? = some (setIdentity a) ∧ (stateAt plainToml firstRun as i).inner = ⟨0, 2⟩ ∧
    (stateAt plainToml firstRun as (i + 1)).inner = ⟨a, 1⟩ := by
  refine ⟨plainToml_keepsPerformance,
    [setPerformance 1, .save, .save, .save, setPerformance 2, .save, setIdentity 5], ?_, 6, 5, rfl, ?_, ?_⟩
  · simp [setPerformance, setIdentity, Event.Internal]
  · decide
  decide

/-! ## Edits of the performance fields -/

section
variable {α π ρ : Type} {toml : Toml α π ρ} {m : ConfigManager α π ρ}
variable {p : π} {disk : NetworkConfig α π} {updater : NetworkConfig α π → NetworkConfig α π} {e : Event α π ρ}

/-- An update that leaves the performance fields alone, or a step of the save thread. -/
def Event.Maintains : Event α π ρ → Prop
  | .update updater => ∀ cfg, (updater cfg).performance = cfg.performance
  | .save => True
  | .edit _ | .clearInner _ | .deleteFile => False

/-- The step takes over what it finds in the file. -/
def Event.Absorbs (toml : Toml α π ρ) (m : ConfigManager α π ρ) : Event α π ρ → Prop
  | .update _ => (m.found toml).isSome
  | .save => (m.found toml).isSome ∧ ∃ pending, m.saver = .collected pending
  | .edit _ | .clearInner _ | .deleteFile => False

/-- An update that finds an edit does so while the save thread has no other performance fields to write, and the
  save thread finds one only if its performance fields are live. -/
def Event.Timely (toml : Toml α π ρ) (m : ConfigManager α π ρ) : Event α π ρ → Prop
  | .update _ =>
    match m.saver with
    | .collected pending | .absorbed pending => ∀ disk ∈ m.found toml, pending.performance = disk.performance
    | _ => True
  | .save =>
    match m.saver with
    | .collected _ => ∀ disk ∈ m.found toml, m.inner.performance = disk.performance
    | _ => True
  | _ => True

instance (toml : Toml α π ρ) [DecidableEq π] (m : ConfigManager α π ρ) (e : Event α π ρ) :
    Decidable (e.Timely toml m) := by
  unfold Event.Timely
  split
  · split <;> infer_instance
  · split <;> infer_instance
  infer_instance

variable (m) in
def Newest : Prop :=
  match m.saveQueue.getLast? with
  | some cfg => cfg = m.inner
  | none => ∀ pending, m.saver = .collecting pending → pending = m.inner

theorem newest_update : Newest (m.update toml updater) := by
  unfold Newest ConfigManager.update
  simp only [List.getLast?_append, List.getLast?_singleton, Option.some_or]

theorem Newest.of_pop (h : Newest m) {next : NetworkConfig α π} {rest : List (NetworkConfig α π)}
    (hq : m.saveQueue = next :: rest) : Newest { m with saveQueue := rest, saver := .collecting next } := by
  unfold Newest at h ⊢
  rw [hq, List.getLast?_cons] at h
  dsimp only at h ⊢
  cases hr : rest.getLast? with
  | none =>
    rw [hr] at h
    intro pending hp
    cases hp
    exact h
  | some cfg => rw [hr] at h; exact h

theorem Newest.of_saver (h : Newest m) {m' : ConfigManager α π ρ} (hq : m'.saveQueue = m.saveQueue)
    (hi : m'.inner = m.inner) (hs : ∀ pending, m'.saver ≠ .collecting pending) : Newest m' := by
  unfold Newest at h ⊢
  rw [hq, hi]
  cases hl : m.saveQueue.getLast? with
  | none => exact fun pending hp => absurd hp (hs pending)
  | some cfg => rw [hl] at h; exact h

theorem Newest.save (h : Newest m) : Newest (m.save toml) := by
  unfold ConfigManager.save
  cases hv : m.saver with
  | idle =>
    cases hq : m.saveQueue with
    | nil => exact h
    | cons pending rest => exact h.of_pop hq
  | collecting pending =>
    cases hq : m.saveQueue with
    | nil => exact h.of_saver hq.symm rfl nofun
    | cons next rest => exact h.of_pop hq
  | collected pending =>
    dsimp only
    split
    · exact h.of_saver rfl rfl nofun
    exact h.of_saver rfl rfl nofun
  | absorbed pending => exact h.of_saver rfl rfl nofun
  | renamed raw => exact h.of_saver rfl rfl nofun

variable (toml m) in
structure Carries (p : π) : Prop where
  inner : m.inner.performance = p
  file : ∀ raw, m.file = some raw → ∃ cfg, toml.parse raw = some cfg ∧ cfg.performance = p
  newest : Newest m
  saver : ∀ pending, m.saver = .collected pending ∨ m.saver = .absorbed pending → pending.performance = p

section
variable (h : Carries toml m p)
include h

theorem Carries.found (hd : m.found toml = some disk) : disk.performance = p := by
  obtain ⟨raw, hf, -, hd⟩ := found_eq_some_iff.mp hd
  obtain ⟨cfg, hc, hp⟩ := h.file raw hf
  exact Option.some.inj (hc.symm.trans hd) ▸ hp

theorem Carries.absorb {live : NetworkConfig α π} (hl : live.performance = p)
    {r : NetworkConfig α π × Option UInt64} (ha : absorbExternalPerformance toml m.file m.diskFp live = some r) :
    r.1.performance = p := by
  rcases absorb_eq_some ha with hr | ⟨disk, hd, hr⟩
  · rw [hr, hl]
  have hp : disk.performance = p := h.found hd
  rw [hr]
  exact hp

theorem Carries.update
    (hu : ∀ cfg, (updater cfg).performance = cfg.performance) : Carries toml (m.update toml updater) p := by
  refine ⟨?_, h.file, newest_update, h.saver⟩
  rcases update_inner toml m with he | ⟨disk, hd, he⟩
  · rw [he, hu, h.inner]
  have hp : disk.performance = p := h.found hd
  rw [he, hu]
  exact hp

theorem Carries.save (hk : toml.KeepsPerformance) : Carries toml (m.save toml) p := by
  have hn : Newest (m.save toml) := h.newest.save
  revert hn
  unfold ConfigManager.save
  cases hv : m.saver with
  | idle =>
    cases hq : m.saveQueue with
    | nil => exact fun _ => h
    | cons pending rest => exact fun hn => ⟨h.inner, h.file, hn, nofun⟩
  | collecting pending =>
    cases hq : m.saveQueue with
    | nil =>
      refine fun hn => ⟨h.inner, h.file, hn, fun pending' hp => ?_⟩
      have hl := h.newest
      unfold Newest at hl
      rw [hq] at hl
      rcases hp with hp | hp
      · cases hp
        rw [hl pending hv, h.inner]
      cases hp
    | cons next rest => exact fun hn => ⟨h.inner, h.file, hn, nofun⟩
  | collected pending =>
    have hp := h.saver pending (.inl hv)
    dsimp only
    split
    · rename_i r ha
      refine fun hn => ⟨h.inner, h.file, hn, fun pending' hp' => ?_⟩
      rcases hp' with hp' | hp'
      · cases hp'
      cases hp'
      exact h.absorb hp ha
    · exact fun hn => ⟨h.inner, h.file, hn, nofun⟩
  | absorbed pending =>
    refine fun hn => ⟨h.inner, fun raw hf => ?_, hn, nofun⟩
    cases hf
    obtain ⟨cfg, hc, he⟩ := hk pending
    exact ⟨cfg, hc, he.trans (h.saver pending (.inr hv))⟩
  | renamed raw => exact fun hn => ⟨h.inner, h.file, hn, nofun⟩

theorem Carries.step (hk : toml.KeepsPerformance) (he : e.Maintains) : Carries toml (m.step toml e).1 p := by
  cases e with
  | update updater => exact h.update he
  | save => exact h.save hk
  | edit | clearInner | deleteFile => cases he

end

theorem carries_of_update (hd : m.found toml = some disk) (ht : Event.Timely toml m (.update updater))
    (hu : ∀ cfg, (updater cfg).performance = cfg.performance) : Carries toml (m.update toml updater)
    disk.performance := by
  obtain ⟨raw, hf, -, hp⟩ := found_eq_some_iff.mp hd
  refine ⟨?_, fun raw' hf' => ?_, newest_update, fun pending hs => ?_⟩
  · obtain ⟨_, -, ha⟩ := absorb_of_found hd m.inner
    show (updater ((absorbExternalPerformance toml m.file m.diskFp m.inner).getD (m.inner, m.diskFp)).1).performance =
        _
    rw [ha, hu]
    rfl
  · have he : raw = raw' := Option.some.inj (hf.symm.trans hf')
    exact ⟨disk, he ▸ hp, rfl⟩
  unfold Event.Timely at ht
  have hs : m.saver = .collected pending ∨ m.saver = .absorbed pending := hs
  rcases hs with hs | hs
  · rw [hs] at ht
    exact ht disk hd
  rw [hs] at ht
  exact ht disk hd

theorem carries_of_save (hd : m.found toml = some disk) (ht : Event.Timely toml m .save)
    (hn : Newest m) {pending : NetworkConfig α π} (hs : m.saver = .collected pending) :
    Carries toml (m.save toml) disk.performance := by
  obtain ⟨raw, hf, -, hp⟩ := found_eq_some_iff.mp hd
  obtain ⟨_, -, ha⟩ := absorb_of_found hd pending
  have hn : Newest (m.save toml) := hn.save
  revert hn
  unfold ConfigManager.save
  unfold Event.Timely at ht
  rw [hs] at ht ⊢
  dsimp only at ht ⊢
  rw [ha]
  refine fun hn => ⟨ht disk hd, fun raw' hf' => ?_, hn, fun pending' hp' => ?_⟩
  · have he : raw = raw' := Option.some.inj (hf.symm.trans hf')
    exact ⟨disk, he ▸ hp, rfl⟩
  rcases hp' with hp' | hp'
  · cases hp'
  cases hp'
  rfl

theorem carries_of_absorbs (hd : m.found toml = some disk) (hn : Newest m) (he : e.Maintains) (ht : e.Timely toml m)
    (ha : e.Absorbs toml m) : Carries toml (m.step toml e).1 disk.performance := by
  cases e with
  | update updater => exact carries_of_update hd ht he
  | save =>
    obtain ⟨pending, hs⟩ := ha.2
    exact carries_of_save hd ht hn hs
  | edit | clearInner | deleteFile => cases he

theorem newest_step (hn : Newest m) (he : e.Maintains ∨ ∃ raw, e = .edit raw) : Newest (m.step toml e).1 := by
  rcases he with he | ⟨raw, rfl⟩
  · cases e with
    | update updater => exact newest_update
    | save => exact hn.save
    | edit | clearInner | deleteFile => cases he
  · exact hn

theorem absorbed_edit_survives (hk : toml.KeepsPerformance) {default : NetworkConfig α π} {file : Option ρ}
    (hl : (ConfigManager.new default file).load toml = some m) {as : List (Event α π ρ)} {i : Nat} {raw : ρ}
    (hi : as[i]? = some (.edit raw)) (ho : ∀ e ∈ as.eraseIdx i, e.Maintains)
    (ht : Each (ConfigManager.step toml) m as (Event.Timely toml)) {k : Nat} (hik : i < k)
    (he : as[k]? = some e) (ha : e.Absorbs toml (stateAt toml m as k)) (hf : (stateAt toml m as k).file = some raw)
    (hd : toml.parse raw = some disk) {j : Nat} (hkj : k < j) : (stateAt toml m as j).inner.performance =
    disk.performance ∧ ∀ raw', (stateAt toml m as j).file = some raw' → ∃ cfg, toml.parse raw' = some cfg ∧
    cfg.performance = disk.performance := by
  have ho : ∀ j e, j ≠ i → as[j]? = some e → e.Maintains :=
    fun j e hj he => ho e (List.mem_eraseIdx_iff_getElem?.mpr ⟨j, hj, he⟩)
  have hnew : Newest (stateAt toml m as k) := by
    obtain ⟨-, hs, hq⟩ := load_known hl
    have h0 : Newest m := by
      unfold Newest
      rw [hq, hs]
      nofun
    have hok : Each (ConfigManager.step toml) m as fun _ e => e.Maintains ∨ ∃ raw, e = .edit raw := by
      intro j e hj
      by_cases hji : j = i
      · subst hji
        exact .inr ⟨raw, Option.some.inj (hj.symm.trans hi)⟩
      exact .inl (ho j e hji hj)
    exact Machine.invariant h0 (fun m e he h => newest_step h he) hok k
  have hfound : (stateAt toml m as k).found toml = some disk := by
    obtain ⟨disk', hd'⟩ : ∃ disk', (stateAt toml m as k).found toml = some disk' := by
      cases e with
      | update updater => exact Option.isSome_iff_exists.mp ha
      | save => exact Option.isSome_iff_exists.mp ha.1
      | edit | clearInner | deleteFile => cases ha
    obtain ⟨raw', hf', -, hp⟩ := found_eq_some_iff.mp hd'
    have hr : raw' = raw := Option.some.inj (hf'.symm.trans hf)
    subst hr
    rw [hd', Option.some.inj (hp.symm.trans hd)]
  have hcarries : Carries toml (stateAt toml m as j) disk.performance := by
    refine persists (B := (Carries toml · disk.performance)) hkj ?_ fun l e' hl _ he' h => ?_
    · rw [stateAt_succ _ _ _ he]
      exact carries_of_absorbs hfound hnew (ho k e (by omega) he) (ht k e he) ha
    exact h.step hk (ho l e' (by omega) he')
  exact ⟨hcarries.inner, hcarries.file⟩

end

/-- An edit that the second update finds. -/
def editFoundByUpdate : List (Event Nat Nat (NetworkConfig Nat Nat)) :=
  [setIdentity 1, .save, .edit ⟨7, 9⟩, setIdentity 2, .save, .save, .save, .save, .save]

theorem editFoundByUpdate_survives : (stateAt plainToml firstRun editFoundByUpdate 9).inner.performance = 9 := by
  have hl : (ConfigManager.new ⟨0, 0⟩ none).load plainToml = some firstRun := rfl
  have hi : editFoundByUpdate[2]? = some (.edit ⟨7, 9⟩) := rfl
  have ho : ∀ e ∈ editFoundByUpdate.eraseIdx 2, e.Maintains := by
    simp [editFoundByUpdate, setIdentity, Event.Maintains]
  have hu : editFoundByUpdate[3]? = some (setIdentity 2) := rfl
  exact (absorbed_edit_survives plainToml_keepsPerformance hl hi ho (by decide) (by decide) hu rfl rfl rfl
    (by decide)).1

/-- An edit that the save thread finds. -/
def editFoundBySave : List (Event Nat Nat (NetworkConfig Nat Nat)) :=
  [setIdentity 1, .save, .save, .edit ⟨7, 9⟩, .save, .save, .save, setIdentity 2, .save, .save, .save, .save, .save]

theorem absorbed_edit_lost : plainToml.KeepsPerformance ∧ editFoundBySave[3]? = some (.edit ⟨7, 9⟩) ∧
    (∀ e ∈ editFoundBySave.eraseIdx 3, e.Maintains) ∧ Event.Absorbs plainToml
    (stateAt plainToml firstRun editFoundBySave 4) .save ∧ (stateAt plainToml firstRun editFoundBySave 4).file = some
    ⟨7, 9⟩ ∧ (stateAt plainToml firstRun editFoundBySave 5).inner.performance = 0 ∧
    (stateAt plainToml firstRun editFoundBySave 13).file = some ⟨2, 0⟩ := by
  refine ⟨plainToml_keepsPerformance, rfl, ?_, ⟨rfl, ⟨1, 0⟩, rfl⟩, rfl, rfl, rfl⟩
  simp [editFoundBySave, setIdentity, Event.Maintains]

/-! ## Deletion -/

section
variable {α π ρ : Type} (toml : Toml α π ρ) (m : ConfigManager α π ρ)

/-- The save thread has nothing left to write. -/
def Settled : Prop :=
  m.saveQueue = [] ∧ match m.saver with
    | .idle | .renamed _ => True
    | .collecting _ | .collected _ | .absorbed _ => False

def saves (n : Nat) : ConfigManager α π ρ :=
  run (ConfigManager.step toml) m (List.replicate n .save)

variable {toml m}

theorem saves_add {k n : Nat} : saves toml m (k + n) = saves toml (saves toml m k) n := by
  unfold saves run
  rw [← List.replicate_append_replicate, List.foldl_append]

theorem Settled.save (h : Settled m) (hf : m.file = none) : Settled (m.save toml) ∧ (m.save toml).file = none := by
  obtain ⟨hq, hs⟩ := h
  unfold ConfigManager.save
  cases hv : m.saver with
  | idle =>
    rw [hq]
    exact ⟨⟨hq, hs⟩, hf⟩
  | renamed raw => exact ⟨⟨hq, trivial⟩, hf⟩
  | collecting | collected | absorbed => rw [hv] at hs; cases hs

theorem Settled.saves (h : Settled m) (hf : m.file = none) {n : Nat} : (saves toml m n).file = none := by
  have hall : Settled (ConfigStore.saves toml m n) ∧ (ConfigStore.saves toml m n).file = none := by
    induction n with
    | zero => exact ⟨h, hf⟩
    | succ n ih =>
      rw [saves_add]
      exact ih.1.save ih.2
  exact hall.2

def backlog (m : ConfigManager α π ρ) : Nat :=
  5 * m.saveQueue.length + match m.saver with
    | .idle => 0
    | .renamed _ => 1
    | .absorbed _ => 2
    | .collected _ => 3
    | .collecting _ => 4

theorem backlog_save_lt (h : ¬ (m.saver = .idle ∧ m.saveQueue = [])) : backlog (m.save toml) < backlog m := by
  unfold ConfigManager.save backlog
  cases hv : m.saver with
  | idle =>
    cases hq : m.saveQueue with
    | nil => exact absurd ⟨hv, hq⟩ h
    | cons pending rest => simp only [List.length_cons]; omega
  | collecting pending =>
    cases hq : m.saveQueue with
    | nil => simp only [List.length_nil]; omega
    | cons next rest => simp only [List.length_cons]; omega
  | collected pending =>
    dsimp only
    split <;> simp only <;> omega
  | absorbed pending => simp only; omega
  | renamed raw => simp only; omega

variable (toml) in
theorem exists_drained (m : ConfigManager α π ρ) :
    ∃ n, (saves toml m n).saver = .idle ∧ (saves toml m n).saveQueue = [] := by
  by_cases h : m.saver = .idle ∧ m.saveQueue = []
  · exact ⟨0, h⟩
  obtain ⟨n, hn⟩ := exists_drained (m.save toml)
  refine ⟨1 + n, ?_⟩
  rw [saves_add]
  exact hn
termination_by backlog m
decreasing_by exact backlog_save_lt h

variable (m) in
def Returns : Prop := m.file ≠ none ∨ ¬ Settled m

theorem Returns.save (h : Returns m) (hs : Synced toml m) : Returns (m.save toml) := by
  unfold ConfigManager.save
  cases hv : m.saver with
  | idle =>
    cases hq : m.saveQueue with
    | nil => exact h
    | cons pending rest => exact .inr fun hset => hset.2
  | collecting pending =>
    cases hq : m.saveQueue with
    | nil => exact .inr fun hset => hset.2
    | cons next rest => exact .inr fun hset => hset.2
  | collected pending =>
    have hk := hs.known (by rw [hv]; nofun)
    dsimp only
    rw [absorb_of_known hk]
    exact .inr fun hset => hset.2
  | absorbed pending => exact .inl nofun
  | renamed raw =>
    rcases h with hf | hn
    · exact .inl hf
    refine .inr fun hset => hn ⟨hset.1, ?_⟩
    rw [hv]
    trivial

theorem Returns.saves (h : Returns m) (hs : Synced toml m) {n : Nat} : Returns (saves toml m n) := by
  have hall : Returns (ConfigStore.saves toml m n) ∧ Synced toml (ConfigStore.saves toml m n) := by
    induction n with
    | zero => exact ⟨h, hs⟩
    | succ n ih =>
      rw [saves_add]
      exact ⟨ih.1.save ih.2, ih.2.save⟩
  exact hall.1

theorem synced_deleteFile : Synced toml m.deleteFile := ⟨nofun, nofun⟩

theorem deleted_stays_deleted_iff :
    (∀ n, (saves toml m.deleteFile n).saver = .idle → (saves toml m.deleteFile n).saveQueue = [] →
      (saves toml m.deleteFile n).file = none) ↔ Settled m := by
  constructor
  · intro h
    by_contra hn
    obtain ⟨n, hs, hq⟩ := exists_drained toml m.deleteFile
    have h0 : Returns m.deleteFile := Or.inr hn
    have hr : Returns (saves toml m.deleteFile n) := h0.saves synced_deleteFile
    rcases hr with hf | hset
    · exact hf (h n hs hq)
    refine hset ⟨hq, ?_⟩
    rw [hs]
    trivial
  intro h n _ _
  have h0 : Settled m.deleteFile := h
  exact h0.saves rfl

/-- `clear_and_delete` after any run, with `k` steps of the save thread between its halves. -/
theorem cleared_stays_cleared_iff (m : ConfigManager α π ρ) (before : List (Event α π ρ))
    (default : NetworkConfig α π) (k : Nat) :
    let m₁ := saves toml ((run (ConfigManager.step toml) m before).clearInner default) k
    (∀ n, let m₂ := saves toml m₁.deleteFile n
      m₂.saver = .idle → m₂.saveQueue = [] → m₂.file = none) ↔ Settled m₁ :=
  deleted_stays_deleted_iff

end

theorem cleared_file_returns :
    let m₁ := (run (ConfigManager.step plainToml) firstRun [setPerformance 1]).clearInner ⟨0, 0⟩
    let m₂ := saves plainToml m₁.deleteFile 5
    m₂.saver = .idle ∧ m₂.saveQueue = [] ∧ m₂.file = some ⟨0, 1⟩ := by
  decide

end ConnectUnit.ConfigStore
