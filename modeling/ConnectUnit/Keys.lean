import ConnectUnit.Crypto
import ConnectUnit.Routing

/-!
# The pool of network keys

A key in the pool is shared by reference; `ptr` is the identity of the
allocation, which decides which keys are tried on a sealed frame.
-/

namespace ConnectUnit

structure AeadKey where
  material : Key
  ptr : Nat
  deriving DecidableEq

structure CryptoPool where
  primary : Option AeadKey
  extras : List AeadKey
  perPeer : HashMap SocketAddr AeadKey
  nextPtr : Nat

namespace CryptoPool

def maxExtraKeys : Nat := 8

def new : CryptoPool := ⟨none, [], ∅, 0⟩

variable (pool : CryptoPool)

def trimExtras : CryptoPool :=
  { pool with extras := pool.extras.drop (pool.extras.length - maxExtraKeys) }

def hasAny : Bool :=
  pool.primary.isSome || !pool.extras.isEmpty || !pool.perPeer.entries.isEmpty

def sharedSigningKey (pick : Nat) : Option AeadKey :=
  pool.primary.or (pool.extras.getLast?.or
    ((pool.perPeer.entries[pick % pool.perPeer.entries.length]?).map (·.2)))

def setPrimary (key : Key) : CryptoPool × AeadKey :=
  let ak : AeadKey := ⟨key, pool.nextPtr⟩
  let extras := if pool.extras.any fun k => k.material = key then pool.extras else pool.extras ++ [ak]
  (trimExtras { pool with primary := some ak, extras := extras, nextPtr := pool.nextPtr + 1 }, ak)

def addKey (key : Key) : CryptoPool × AeadKey :=
  match pool.primary.filter fun k => k.material = key with
  | some existing => (pool, existing)
  | none =>
    match pool.extras.find? fun k => k.material = key with
    | some existing => (pool, existing)
    | none =>
      let ak : AeadKey := ⟨key, pool.nextPtr⟩
      (trimExtras { pool with extras := pool.extras ++ [ak], nextPtr := pool.nextPtr + 1 }, ak)

def bindPeerKey (peer : SocketAddr) (key : AeadKey) : CryptoPool :=
  { pool with perPeer := pool.perPeer.insert peer key }

def unbindPeer (peer : SocketAddr) : CryptoPool :=
  { pool with perPeer := pool.perPeer.erase peer }

def prunePerPeerOrphans (rt : RoutingTable) : CryptoPool :=
  { pool with perPeer := pool.perPeer.retain fun addr _ => (rt.epToVip.lookup addr).isSome }

def keyForDest (dest : SocketAddr) : Option AeadKey :=
  (pool.perPeer.lookup dest).or (pool.primary.or pool.extras.getLast?)

def pushPtrUnique (out : List AeadKey) (candidate : AeadKey) : List AeadKey :=
  if out.any fun k => k.ptr = candidate.ptr then out else out ++ [candidate]

def keysForDecrypt (source : SocketAddr) : List AeadKey :=
  match pool.perPeer.lookup source with
  | some bound =>
    if pool.primary.any fun p => p.ptr = bound.ptr then [bound]
    else (pool.primary.toList ++ pool.extras.reverse).foldl pushPtrUnique [bound]
  | none => (pool.primary.toList ++ pool.extras.reverse).foldl pushPtrUnique []

def clear : CryptoPool := { pool with primary := none, extras := [], perPeer := ∅ }

theorem pushPtrUnique_ne_nil (keys : List AeadKey) {out : List AeadKey} (h : out ≠ []) :
    keys.foldl pushPtrUnique out ≠ [] := by
  refine List.foldlRecOn (motive := (· ≠ [])) keys _ h fun out h key _ => ?_
  unfold pushPtrUnique
  split
  · exact h
  simp

theorem keysForDecrypt_ne_nil {pool : CryptoPool} (h : pool.primary.isSome) (source : SocketAddr) :
    pool.keysForDecrypt source ≠ [] := by
  obtain ⟨key, hk⟩ := Option.isSome_iff_exists.mp h
  unfold keysForDecrypt
  split
  · split
    · simp
    · exact pushPtrUnique_ne_nil _ (by simp)
  rw [hk]
  exact pushPtrUnique_ne_nil pool.extras.reverse (by simp [pushPtrUnique])

theorem addKey_primary {pool : CryptoPool} {key : Key} : (pool.addKey key).1.primary = pool.primary := by
  unfold addKey
  split
  · rfl
  split <;> rfl

end CryptoPool

end ConnectUnit
