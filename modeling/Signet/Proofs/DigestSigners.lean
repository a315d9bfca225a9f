import Signet.DigestSigner

/-!
# Keys that are derived from seeds

`KeyAlgorithm.Derives` says which key a seed stands for, and `KeyAlgorithm.Accepts` which digests
keys of a kind sign: a key tells its public key, signs the digests that its kind accepts and fails
to sign all others. For curve keys this rests on ECDSA, which may fail on a number
(`Secp256k1.PrivateKey.CanSign`).
-/

namespace Signet

/-- That ECDSA signs a number: the nonce that the key and the number determine is found, and neither
half of the signature that it leads to is zero. -/
def Secp256k1.PrivateKey.CanSign (key : PrivateKey) (number : Nat) : Prop :=
  ∃ nonce signature, key.nonce? number = some nonce ∧
    key.signWith? nonce number = some signature

namespace KeyAlgorithm

/-- Which digests the keys of a kind sign. Curve keys look at the length alone, RSA keys at the
hash, too. -/
def Accepts (algorithm : KeyAlgorithm) (digest : Octets) (hash : HashAlgorithm) : Prop :=
  match algorithm with
  | .secp256k1 => 16 ≤ digest.length
  | .rsa => digest.length = hash.digestLength

instance (algorithm : KeyAlgorithm) (digest : Octets) (hash : HashAlgorithm) :
    Decidable (algorithm.Accepts digest hash) :=
  match algorithm with
  | .secp256k1 => inferInstanceAs (Decidable (16 ≤ digest.length))
  | .rsa => inferInstanceAs (Decidable (digest.length = hash.digestLength))

variable {algorithm : KeyAlgorithm} {seed : String} {key : DigestSigner}

/-- Which key a seed stands for, by the kind of the key. -/
inductive Derives (seed : String) : KeyAlgorithm → DigestSigner → Prop
  | secp256k1 {secret : Secp256k1.PrivateKey} :
    Secp256k1.PrivateKey.ofSeed? seed = some secret →
    Derives seed .secp256k1 (.ofSecp256k1 secret)
  | rsa {secret : Rsa.PrivateKey} :
    Rsa.PrivateKey.ofSeed? seed = some secret → Derives seed .rsa (.ofRsa secret)

theorem deriveKey_eq_ok_iff :
    algorithm.deriveKey seed = .ok key ↔ Derives seed algorithm key := by
  unfold deriveKey
  cases algorithm with
  | secp256k1 =>
    cases ofSeed : Secp256k1.PrivateKey.ofSeed? seed with
    | none =>
      refine ⟨nofun, fun derives => ?_⟩
      cases derives with
      | secp256k1 ofSeed' => exact nomatch ofSeed.symm.trans ofSeed'
    | some secret =>
      refine ⟨fun derived => ?_, fun derives => ?_⟩
      · cases derived
        exact .secp256k1 ofSeed
      · cases derives with
        | secp256k1 ofSeed' =>
          cases ofSeed.symm.trans ofSeed'
          rfl
  | rsa =>
    cases ofSeed : Rsa.PrivateKey.ofSeed? seed with
    | none =>
      refine ⟨nofun, fun derives => ?_⟩
      cases derives with
      | rsa ofSeed' => exact nomatch ofSeed.symm.trans ofSeed'
    | some secret =>
      refine ⟨fun derived => ?_, fun derives => ?_⟩
      · cases derived
        exact .rsa ofSeed
      · cases derives with
        | rsa ofSeed' =>
          cases ofSeed.symm.trans ofSeed'
          rfl

/-- Every key that is derived tells its public key. -/
theorem Derives.publicKeyPem (derives : Derives seed algorithm key) :
    ∃ pem, key.publicKeyPem = .value pem := by
  cases derives with
  | secp256k1 _ => exact ⟨_, rfl⟩
  | rsa _ => exact ⟨_, rfl⟩

/-- A key signs a digest that its kind accepts, if ECDSA does for curve keys. -/
theorem Derives.sign_of_accepts {digest : Octets} {hash : HashAlgorithm}
    (derives : Derives seed algorithm key) (accepts : algorithm.Accepts digest hash)
    (canSign : ∀ secret, algorithm = .secp256k1 →
      Secp256k1.PrivateKey.ofSeed? seed = some secret →
      secret.CanSign (Secp256k1.digestNumber digest)) :
    ∃ octets, key.sign digest hash = .value octets := by
  cases derives with
  | @secp256k1 secret ofSeed =>
    obtain ⟨nonce, signature, found, signed⟩ := canSign secret rfl ofSeed
    have signs : secret.sign? digest = some signature := by
      unfold Secp256k1.PrivateKey.sign?
      rw [if_neg (Nat.not_lt.mpr accepts)]
      dsimp only
      rw [found]
      exact signed
    unfold DigestSigner.ofSecp256k1
    dsimp only
    rw [signs]
    exact ⟨_, rfl⟩
  | rsa _ =>
    have fits : digest.length = hash.digestLength := accepts
    unfold DigestSigner.ofRsa Rsa.PrivateKey.sign?
    dsimp only
    rw [if_pos fits]
    exact ⟨_, rfl⟩

/-- A key fails to sign a digest that its kind does not accept. -/
theorem Derives.sign_of_not_accepts {digest : Octets} {hash : HashAlgorithm}
    (derives : Derives seed algorithm key) (refuses : ¬ algorithm.Accepts digest hash) :
    ∃ failure, key.sign digest hash = .failed failure := by
  cases derives with
  | secp256k1 _ =>
    unfold DigestSigner.ofSecp256k1 Secp256k1.PrivateKey.sign?
    dsimp only
    rw [if_pos (Nat.lt_of_not_le refuses)]
    exact ⟨_, rfl⟩
  | rsa _ =>
    have unfit : digest.length ≠ hash.digestLength := refuses
    unfold DigestSigner.ofRsa Rsa.PrivateKey.sign?
    dsimp only
    rw [if_neg unfit]
    exact ⟨_, rfl⟩

end KeyAlgorithm

end Signet
