import LedgerWire.Account.Basic

namespace LedgerWire

/-!
A memo of the accounts derived from passphrases. An account enters it when its derivation first
succeeds and never changes afterwards; failures are not kept.
-/

/-- The derived accounts by passphrase, each passphrase once. -/
structure AccountCache where
  entries : List (String × Account)

namespace AccountCache

def empty : AccountCache := ⟨[]⟩

def size (cache : AccountCache) : Nat :=
  cache.entries.length

def isEmpty (cache : AccountCache) : Bool :=
  cache.entries.isEmpty

def find? (cache : AccountCache) (passphrase : String) : Option Account :=
  cache.entries.lookup passphrase

/-- The account of a passphrase, and the cache afterwards. The derivation runs in any monad, and
only when the cache has no account. -/
def getOrDerive {m : Type → Type} [Monad m] {ε : Type} (cache : AccountCache)
    (passphrase : String) (derive : String → m (Except ε Account)) :
    m (Except ε Account × AccountCache) :=
  match cache.find? passphrase with
  | some account => pure (.ok account, cache)
  | none => do
    match ← derive passphrase with
    | .ok account => pure (.ok account, ⟨cache.entries ++ [(passphrase, account)]⟩)
    | .error cause => pure (.error cause, cache)

end AccountCache

end LedgerWire
