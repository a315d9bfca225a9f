import Signet.Sha256

/-!
# HMAC

The keyed hash of a message, with SHA-256 inside. It drives the choice of signing nonces.
-/

namespace Signet.Hmac

/-- A key of the length of one block: longer keys are hashed first, shorter ones filled with
zeros. -/
def blockKey (key : Octets) : Octets :=
  let key := if key.length ≤ 64 then key else Sha256.hash key
  key ++ List.replicate (64 - key.length) 0

def sha256 (key message : Octets) : Octets :=
  let inner := (blockKey key).map (· ^^^ 0x36)
  let outer := (blockKey key).map (· ^^^ 0x5c)
  Sha256.hash (outer ++ Sha256.hash (inner ++ message))

end Signet.Hmac
