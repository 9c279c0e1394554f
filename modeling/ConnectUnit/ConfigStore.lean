import Mathlib.Data.Option.Basic
import ConnectUnit.Lib.Machine

/-!
# The configuration store

The live configuration is changed under a lock; every change is queued for a thread that writes the file.
-/

namespace ConnectUnit.ConfigStore

/-- A configuration in two parts: the fields that `merge_performance_from` copies, and all others. -/
structure NetworkConfig (α π : Type) where
  identity : α
  performance : π
  deriving DecidableEq

def NetworkConfig.mergePerformanceFrom {α π : Type} (cfg other : NetworkConfig α π) : NetworkConfig α π :=
  { cfg with performance := other.performance }

structure Toml (α π ρ : Type) where
  encode : NetworkConfig α π → ρ
  parse : ρ → Option (NetworkConfig α π)
  contentFingerprint : ρ → UInt64

/-- What is written is read back with the same performance fields. -/
def Toml.KeepsPerformance {α π ρ : Type} (toml : Toml α π ρ) : Prop :=
  ∀ cfg, ∃ cfg', toml.parse (toml.encode cfg) = some cfg' ∧ cfg'.performance = cfg.performance

/-- Where the save thread stands: waiting, collecting the newest configuration, about to compare it with the file,
  about to write it, or about to note the fingerprint of what it has renamed to the file. -/
inductive Saver (α π ρ : Type) where
  | idle
  | collecting (pending : NetworkConfig α π)
  | collected (pending : NetworkConfig α π)
  | absorbed (pending : NetworkConfig α π)
  | renamed (raw : ρ)
  deriving DecidableEq

/-- `inner`, the channel to the save thread, the fingerprint, the file and the thread. -/
structure ConfigManager (α π ρ : Type) where
  inner : NetworkConfig α π
  saveQueue : List (NetworkConfig α π)
  diskFp : Option UInt64
  file : Option ρ
  saver : Saver α π ρ
  deriving DecidableEq

section
variable {α π ρ : Type} (toml : Toml α π ρ)

def absorbExternalPerformance (file : Option ρ) (diskFp : Option UInt64) (live : NetworkConfig α π) :
    Option (NetworkConfig α π × Option UInt64) :=
  match file with
  | none => some (live, diskFp)
  | some raw =>
    if diskFp = some (toml.contentFingerprint raw) then some (live, diskFp)
    else (toml.parse raw).map fun disk => (live.mergePerformanceFrom disk, some (toml.contentFingerprint raw))

namespace ConfigManager

def new (default : NetworkConfig α π) (file : Option ρ) : ConfigManager α π ρ :=
  { inner := default, saveQueue := [], diskFp := none, file, saver := .idle }

variable (m : ConfigManager α π ρ)

/-- A failed absorption is ignored. -/
def update (updater : NetworkConfig α π → NetworkConfig α π) : ConfigManager α π ρ :=
  let r := (absorbExternalPerformance toml m.file m.diskFp m.inner).getD (m.inner, m.diskFp)
  let inner := updater r.1
  { m with inner, diskFp := r.2, saveQueue := m.saveQueue ++ [inner] }

/-- `none` if the file cannot be parsed. -/
def load : Option (ConfigManager α π ρ) :=
  match m.file with
  | none => some m
  | some raw =>
    (toml.parse raw).map fun cfg => { m with inner := cfg, diskFp := some (toml.contentFingerprint raw) }

def reloadPerformanceFromDisk : Option (ConfigManager α π ρ) := do
  let raw ← m.file
  let disk ← toml.parse raw
  let m := { m with diskFp := some (toml.contentFingerprint raw) }
  some (m.update toml (·.mergePerformanceFrom disk))

/-- The first half of `clear_and_delete`, under the lock. -/
def clearInner (default : NetworkConfig α π) : ConfigManager α π ρ := { m with inner := default }

/-- Its second half, after the lock is released. -/
def deleteFile : ConfigManager α π ρ := { m with file := none }

/-- One step of the save thread. -/
def save : ConfigManager α π ρ :=
  match m.saver with
  | .idle =>
    match m.saveQueue with
    | pending :: rest => { m with saveQueue := rest, saver := .collecting pending }
    | [] => m
  | .collecting pending =>
    match m.saveQueue with
    | next :: rest => { m with saveQueue := rest, saver := .collecting next }
    | [] => { m with saver := .collected pending }
  | .collected pending =>
    match absorbExternalPerformance toml m.file m.diskFp pending with
    | some (pending, diskFp) => { m with diskFp, saver := .absorbed pending }
    | none => { m with saver := .idle }
  | .absorbed pending => { m with file := some (toml.encode pending), saver := .renamed (toml.encode pending) }
  | .renamed raw => { m with diskFp := some (toml.contentFingerprint raw), saver := .idle }

end ConfigManager

/-- `edit` replaces the file from outside. -/
inductive Event (α π ρ : Type) where
  | update (updater : NetworkConfig α π → NetworkConfig α π)
  | save
  | edit (raw : ρ)
  | clearInner (default : NetworkConfig α π)
  | deleteFile

def ConfigManager.step (m : ConfigManager α π ρ) : Event α π ρ → ConfigManager α π ρ × List Empty
  | .update updater => (m.update toml updater, [])
  | .save => (m.save toml, [])
  | .edit raw => ({ m with file := some raw }, [])
  | .clearInner default => (m.clearInner default, [])
  | .deleteFile => (m.deleteFile, [])

end

end ConnectUnit.ConfigStore
