import Signet.Configuration.Basic
import Signet.KeyStore

/-!
# Loading keys

The keys of a configuration are derived one after the other, logged, and put into a key store. The
first that cannot be derived or stored ends it.
-/

namespace Signet

structure Loading where
  log : List Event
  store : Except ConfigurationError KeyStore

/-- The same behind one more event. -/
def Loading.after (event : Event) (loading : Loading) : Loading :=
  { loading with log := event :: loading.log }

def KeyStore.load (store : KeyStore) : List KeyEntry → Loading
  | [] => ⟨[], .ok store⟩
  | entry :: entries =>
    match entry.algorithm.deriveKey entry.seed with
    | .error failure => ⟨[], .error (.underivableKey entry.identifier failure)⟩
    | .ok key =>
      Loading.after (.keyLoaded entry.identifier key.algorithm) <|
        match store.insert entry.identifier key with
        | .error _ => ⟨[], .error (.duplicateKey entry.identifier)⟩
        | .ok store => store.load entries

def Configuration.load (configuration : Configuration) : Loading :=
  KeyStore.empty.load configuration.keys

end Signet
