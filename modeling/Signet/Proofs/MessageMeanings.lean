import Signet.Message
import Signet.Proofs.JsonRecords

/-!
# What messages mean

A message means what its members come to: a field that is given has what its value means in this
place, and one that is not given is empty if it may be missing (`Json.MeansOr`), while without one
that may not the value means no message (`Json.MeansGiven`). Readers take just the values that mean
a message.
-/

namespace Signet

open Json (Value Understands Layout MeansRecord MeansText MeansOption MeansList MeansOr MeansGiven
  understands_readText understands_single understands_given exists_rel_getD_iff)

/-! ## Key references -/

namespace KeyReference

/-- A key reference has the identifier that is given, or an empty one. -/
def Fits (members : List (String × Value)) (key : KeyReference) : Prop :=
  MeansOr MeansText "" (members.lookup "identifier") key.identifier

def Means : Value → KeyReference → Prop :=
  MeansRecord ["identifier"] false Fits

theorem understands_read : Understands read Means := by
  refine understands_single understands_readText rfl rfl fun members key => ?_
  obtain ⟨identifier⟩ := key
  unfold Fits
  rw [← exists_rel_getD_iff]
  simp [record]

theorem not_means_null {key : KeyReference} : ¬ Means .null key := by
  rintro ⟨members, gives, -⟩
  cases gives

theorem understands_readOption : Understands readOption (MeansOption Means) :=
  understands_read.readOption fun _ => not_means_null

end KeyReference

/-! ## Signing requests -/

namespace SigningRequest

/-- A signing request has what is given, and nothing or empty texts for what is not. -/
def Fits (members : List (String × Value)) (request : SigningRequest) : Prop :=
  MeansOr (MeansOption KeyReference.Means) none (members.lookup "keyMeta") request.key? ∧
    MeansOr MeansText "" (members.lookup "digest") request.digest ∧
      MeansOr MeansText "" (members.lookup "hashAlgorithm") request.hash

def Means : Value → SigningRequest → Prop :=
  MeansRecord ["keyMeta", "digest", "hashAlgorithm"] false Fits

def layout : Layout record where
  slots :=
    [⟨"keyMeta", Draft.key?, fun draft key? => { draft with key? := some key? },
      KeyReference.readOption, MeansOption KeyReference.Means,
      KeyReference.understands_readOption⟩,
     ⟨"digest", Draft.digest, fun draft digest => { draft with digest }, Json.readText, MeansText,
      understands_readText⟩,
     ⟨"hashAlgorithm", Draft.hash, fun draft hash => { draft with hash },
      Json.readText, MeansText, understands_readText⟩]
  fields_eq := rfl
  nodup := by simp
  get_blank := by simp [record]
  get_set := by simp
  get_set_other := by simp
  ext := by
    rintro ⟨key?, digest, hash⟩ ⟨otherKey?, otherDigest, otherHash⟩ same
    simpa using same

theorem understands_read : Understands read Means := by
  refine layout.understands_of_fits fun members request => ?_
  obtain ⟨key?, digest, hash⟩ := request
  unfold Fits
  rw [← exists_rel_getD_iff, ← exists_rel_getD_iff, ← exists_rel_getD_iff]
  constructor
  · rintro ⟨last, fit, isComplete⟩
    simp only [layout, List.forall_mem_cons] at fit
    cases isComplete
    exact ⟨⟨_, fit.1, rfl⟩, ⟨_, fit.2.1, rfl⟩, ⟨_, fit.2.2.1, rfl⟩⟩
  · rintro ⟨⟨givenKey, isKey, rfl⟩, ⟨givenDigest, isDigest, rfl⟩,
      givenHash, isHash, rfl⟩
    refine ⟨⟨givenKey, givenDigest, givenHash⟩, ?_, rfl⟩
    simp only [layout, List.forall_mem_cons]
    exact ⟨isKey, isDigest, isHash, nofun⟩

end SigningRequest

/-! ## Answers -/

def KeyListing.Means : Value → KeyListing → Prop :=
  MeansRecord ["keys"] false fun members listing =>
    MeansGiven (MeansList KeyReference.Means) (members.lookup "keys") listing.keys

theorem KeyListing.understands_read : Understands read Means :=
  understands_given KeyReference.understands_read.readList rfl rfl KeyListing.mk KeyListing.keys
    (fun _ => rfl) (fun _ => rfl) (fun _ => rfl) rfl

def PublicKey.Means : Value → PublicKey → Prop :=
  MeansRecord ["key"] false fun members key => MeansGiven MeansText (members.lookup "key") key.key

theorem PublicKey.understands_read : Understands read Means :=
  understands_given understands_readText rfl rfl PublicKey.mk PublicKey.key (fun _ => rfl)
    (fun _ => rfl) (fun _ => rfl) rfl

def Signature.Means : Value → Signature → Prop :=
  MeansRecord ["signature"] false fun members signature =>
    MeansGiven MeansText (members.lookup "signature") signature.signature

theorem Signature.understands_read : Understands read Means :=
  understands_given understands_readText rfl rfl Signature.mk Signature.signature (fun _ => rfl)
    (fun _ => rfl) (fun _ => rfl) rfl

end Signet
