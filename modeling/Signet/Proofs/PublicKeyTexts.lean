import Mathlib.Data.List.Infix
import Signet.Proofs.DerReaders
import Signet.Proofs.DigestNormalForm
import Signet.Rsa.Key
import Signet.Secp256k1.Signature

/-!
# Reading public keys

A public key is handed out as text: its encoding in base64, in lines, between two boundary lines.
`Pem.readPublicKey?` takes the encoding out of the text; `Rsa.readPublicKey?` takes modulus and
exponent out of the encoding, `Secp256k1.readPublicKey?` a point. What is printed of a private key
is read back in this way (`Rsa.PrivateKey.readPublicKey?_publicKeyPem`,
`Secp256k1.PrivateKey.readPublicKey?_publicKeyPem`).
-/

namespace Signet

/-! ## Texts -/

namespace Pem

/-- Lines hold the symbols that they are cut from. -/
theorem breaks_linesWith {fuel : Nat} {symbols : List Char} (enough : symbols.length ≤ fuel) :
    Base64.Breaks symbols (linesWith fuel symbols).toList := by
  induction fuel generalizing symbols with
  | zero =>
    rw [List.eq_nil_of_length_eq_zero (Nat.le_zero.mp enough)]
    exact .nil
  | succ fuel ih =>
    cases symbols with
    | nil => exact .nil
    | cons symbol symbols =>
      have rest : ((symbol :: symbols).drop 64).length ≤ fuel := by
        rw [List.length_drop]
        rw [List.length_cons] at enough ⊢
        omega
      have line := (Base64.Breaks.refl ((symbol :: symbols).take 64)).append
        (.insert (Or.inr rfl) (ih rest))
      rw [List.take_append_drop] at line
      rw [linesWith, String.toList_append, String.toList_append, String.toList_ofList,
        List.append_assoc]
      · exact line
      · exact nofun

/-- Takes the encoding of a public key out of a text: base64, with line breaks anywhere, between the
boundary lines. -/
def readPublicKey? (text : String) : Option Octets := do
  let behind ← text.toList.dropPrefix? "-----BEGIN PUBLIC KEY-----\n".toList
  let body ← behind.dropSuffix? "-----END PUBLIC KEY-----\n".toList
  (Base64.decode (String.ofList body)).toOption

theorem readPublicKey?_publicKey (encoded : Octets) :
    readPublicKey? (publicKey encoded) = some encoded := by
  have opened {lead rest : List Char} : (lead ++ rest).dropPrefix? lead = some rest :=
    List.dropPrefix?_append_of_beq rest (beq_self_eq_true lead)
  have closed {body last : List Char} : (body ++ last).dropSuffix? last = some body :=
    List.dropSuffix?_eq_some_iff.mpr ⟨last, rfl, beq_self_eq_true last⟩
  have decoded : Base64.decode (String.ofList (linesWith (Base64.encode encoded).toList.length
      (Base64.encode encoded).toList).toList) = .ok encoded := by
    refine Base64.decode_of_breaks ?_
    rw [String.toList_ofList]
    exact breaks_linesWith (Nat.le_refl _)
  unfold publicKey readPublicKey?
  dsimp only
  rw [String.toList_append, String.toList_append, List.append_assoc, opened]
  dsimp only [Option.bind_eq_bind, Option.bind_some]
  rw [closed]
  dsimp only [Option.bind_some]
  rw [decoded]
  rfl

end Pem

/-! ## RSA -/

namespace Rsa

/-- How the kind of an RSA key is encoded. -/
def keyKind : Octets :=
  [0x06, 0x09, 0x2a, 0x86, 0x48, 0x86, 0xf7, 0x0d, 0x01, 0x01, 0x01, 0x05, 0x00]

/-- Takes modulus and exponent out of the encoding of a public key. -/
def readPublicKeyInfo? (octets : Octets) : Option (Nat × Nat) := do
  let info ← Der.whole? (Der.readElement? 0x30 octets)
  let (kind, behind) ← Der.readElement? 0x30 info
  guard (kind = keyKind)
  let key ← Der.whole? (Der.readBitString? behind)
  let numbers ← Der.whole? (Der.readElement? 0x30 key)
  let (modulus, behind) ← Der.readInteger? numbers
  let exponent ← Der.whole? (Der.readInteger? behind)
  return (modulus, exponent)

/-- Takes modulus and exponent out of the text of a public key. -/
def readPublicKey? (text : String) : Option (Nat × Nat) :=
  (Pem.readPublicKey? text).bind readPublicKeyInfo?

/-- What the encoding of a public key holds. -/
theorem publicKeyInfo_eq (modulus : Nat) : publicKeyInfo modulus =
    Der.element 0x30 (Der.element 0x30 keyKind ++
      Der.bitString (Der.element 0x30 (Der.integer modulus ++ Der.integer 65537))) := by
  have kind : Der.sequence [
      Der.objectIdentifier [0x2a, 0x86, 0x48, 0x86, 0xf7, 0x0d, 0x01, 0x01, 0x01], Der.null] =
      Der.element 0x30 keyKind := by decide
  rw [publicKeyInfo, kind, Der.sequence_pair, Der.sequence_pair]
  rfl

theorem readPublicKeyInfo?_publicKeyInfo {modulus : Nat} (short : modulus.log2 < 2 ^ 32) :
    readPublicKeyInfo? (publicKeyInfo modulus) = some (modulus, 65537) := by
  -- From the inside out, everything is short.
  have modulusShort := Der.length_integer_le short
  have numbersShort : (Der.integer modulus ++ Der.integer 65537).length ≤ 2 ^ 32 + 5 := by
    have exponent : (Der.integer 65537).length = 5 := by decide
    rw [List.length_append, exponent]
    omega
  have numbersAre : Der.IsShort (Der.integer modulus ++ Der.integer 65537) :=
    Nat.lt_of_le_of_lt numbersShort (by decide)
  have keyShort := Der.length_element_le numbersAre 0x30
  have keyIs : Der.IsShort (0 :: Der.element 0x30 (Der.integer modulus ++ Der.integer 65537)) := by
    rw [Der.IsShort, List.length_cons]
    omega
  have bitsShort := Der.length_element_le keyIs 0x03
  have infoIs : Der.IsShort (Der.element 0x30 keyKind ++
      Der.bitString (Der.element 0x30 (Der.integer modulus ++ Der.integer 65537))) := by
    have kind : (Der.element 0x30 keyKind).length = 15 := by decide
    rw [Der.IsShort, List.length_append, kind, Der.bitString]
    rw [List.length_cons] at bitsShort
    omega
  have modulusIs : modulus.log2 < 2 ^ 64 := Nat.lt_trans short (by decide)
  have exponentIs : Der.readInteger? (Der.integer 65537) = some (65537, []) := by decide
  have kindIs : Der.IsShort keyKind := by
    unfold Der.IsShort
    decide
  rw [publicKeyInfo_eq, readPublicKeyInfo?, Der.readElement?_element_alone infoIs]
  dsimp only [Der.whole?, Option.bind_eq_bind, Option.bind_some]
  rw [Der.readElement?_element kindIs]
  dsimp only [Option.bind_some]
  rw [Der.readBitString?_bitString keyIs]
  dsimp only [Der.whole?, Option.bind_some]
  rw [Der.readElement?_element_alone numbersAre]
  dsimp only [Der.whole?, Option.bind_some]
  rw [Der.readInteger?_integer modulusIs]
  dsimp only [Option.bind_some]
  rw [exponentIs]
  rfl

/-- The numbers of a public key are read back from its text. -/
theorem PrivateKey.readPublicKey?_publicKeyPem {key : PrivateKey}
    (short : key.modulus.log2 < 2 ^ 32) :
    readPublicKey? key.publicKeyPem = some (key.modulus, 65537) := by
  unfold readPublicKey? publicKeyPem
  rw [Pem.readPublicKey?_publicKey, Option.bind_some, readPublicKeyInfo?_publicKeyInfo short]

end Rsa

/-! ## secp256k1 -/

namespace Secp256k1

/-- How the kind of a curve key and its curve are encoded. -/
def keyKind : Octets :=
  [0x06, 0x07, 0x2a, 0x86, 0x48, 0xce, 0x3d, 0x02, 0x01, 0x06, 0x05, 0x2b, 0x81, 0x04, 0x00, 0x0a]

/-- The affine point that octets hold, uncompressed. -/
def readPoint? : Octets → Option Point
  | 4 :: coordinates =>
    let point :=
      Point.affine (Octets.toNat (coordinates.take 32)) (Octets.toNat (coordinates.drop 32))
    if coordinates.length = 64 ∧ point.IsOnCurve then some point else none
  | _ => none

/-- Takes the point out of the encoding of a public key. -/
def readPublicKeyInfo? (octets : Octets) : Option Point := do
  let info ← Der.whole? (Der.readElement? 0x30 octets)
  let (kind, behind) ← Der.readElement? 0x30 info
  guard (kind = keyKind)
  let key ← Der.whole? (Der.readBitString? behind)
  readPoint? key

/-- Takes the point out of the text of a public key. -/
def readPublicKey? (text : String) : Option Point :=
  (Pem.readPublicKey? text).bind readPublicKeyInfo?

theorem readPoint?_encode {x y : Nat} (isOnCurve : (Point.affine x y).IsOnCurve) :
    readPoint? (Point.affine x y).encode = some (.affine x y) := by
  have fits {coordinate : Nat} (below : coordinate < fieldSize) :
      (Octets.ofNat 32 coordinate).toNat = coordinate :=
    Octets.toNat_ofNat_of_lt_pow (Nat.lt_trans below (by decide))
  have first : (Octets.ofNat 32 x ++ Octets.ofNat 32 y).take 32 = Octets.ofNat 32 x :=
    List.take_left' (Octets.length_ofNat 32 x)
  have second : (Octets.ofNat 32 x ++ Octets.ofNat 32 y).drop 32 = Octets.ofNat 32 y :=
    List.drop_left' (Octets.length_ofNat 32 x)
  have length : (Octets.ofNat 32 x ++ Octets.ofNat 32 y).length = 64 := by
    rw [List.length_append, Octets.length_ofNat, Octets.length_ofNat]
  rw [Point.encode, List.cons_append, readPoint?, first, second, fits isOnCurve.1,
    fits isOnCurve.2.1, if_pos ⟨length, isOnCurve⟩]

/-- What the encoding of a public key holds. -/
theorem publicKeyInfo_eq (point : Point) : publicKeyInfo point =
    Der.element 0x30 (Der.element 0x30 keyKind ++ Der.bitString point.encode) := by
  have kind : Der.sequence [
      Der.objectIdentifier [0x2a, 0x86, 0x48, 0xce, 0x3d, 0x02, 0x01],
      Der.objectIdentifier [0x2b, 0x81, 0x04, 0x00, 0x0a]] = Der.element 0x30 keyKind := by decide
  rw [publicKeyInfo, kind, Der.sequence_pair]

theorem readPublicKeyInfo?_publicKeyInfo {x y : Nat} (isOnCurve : (Point.affine x y).IsOnCurve) :
    readPublicKeyInfo? (publicKeyInfo (.affine x y)) = some (.affine x y) := by
  have length : (Point.affine x y).encode.length = 65 := by
    rw [Point.encode, List.cons_append, List.length_cons, List.length_append, Octets.length_ofNat,
      Octets.length_ofNat]
  have keyIs : Der.IsShort (0 :: (Point.affine x y).encode) := by
    rw [Der.IsShort, List.length_cons, length]
    decide
  have kindIs : Der.IsShort keyKind := by
    unfold Der.IsShort
    decide
  have infoIs : Der.IsShort
      (Der.element 0x30 keyKind ++ Der.bitString (Point.affine x y).encode) := by
    have kind : (Der.element 0x30 keyKind).length = 18 := by decide
    have bits := Der.length_element_le keyIs 0x03
    rw [List.length_cons, length] at bits
    rw [Der.IsShort, List.length_append, kind, Der.bitString]
    omega
  rw [publicKeyInfo_eq, readPublicKeyInfo?, Der.readElement?_element_alone infoIs]
  dsimp only [Der.whole?, Option.bind_eq_bind, Option.bind_some]
  rw [Der.readElement?_element kindIs]
  dsimp only [Option.bind_some]
  rw [Der.readBitString?_bitString keyIs]
  dsimp only [Der.whole?, Option.bind_some]
  rw [readPoint?_encode isOnCurve]
  rfl

/-- The point of a public key is read back from its text, unless it is at infinity. -/
theorem PrivateKey.readPublicKey?_publicKeyPem {key : PrivateKey} {x y : Nat}
    (isPoint : key.publicKey = .affine x y) (isOnCurve : key.publicKey.IsOnCurve) :
    readPublicKey? key.publicKeyPem = some key.publicKey := by
  rw [isPoint] at isOnCurve
  unfold readPublicKey? publicKeyPem
  rw [Pem.readPublicKey?_publicKey, Option.bind_some, isPoint,
    readPublicKeyInfo?_publicKeyInfo isOnCurve]

end Secp256k1

end Signet
