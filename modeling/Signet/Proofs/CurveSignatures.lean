import Signet.Proofs.BasePoint
import Signet.Proofs.DigestSigners
import Signet.Proofs.HashNumbers
import Signet.Proofs.PublicKeyTexts

/-!
# Signatures over secp256k1

A signature verifies because both sides come to the same multiple of the base point: what the
verifier adds up is, up to multiples of the order, the nonce, or its opposite where the second half
of the signature has been replaced by the smaller one (`Secp256k1.recovers_nonce`). Opposite points
share their first coordinate, and this is all that the verifier looks at
(`Secp256k1.Signature.IsMadeWith.accepts`). Nonces that are found have inverses and lead to affine
points, so nothing stands in the way of a signature but that no nonce is found, or that the nonce
that is found leads to a half that is zero (`Secp256k1.PrivateKey.sign?_cases`). For the number zero
only the first half can be, and whether it is can be computed (`Secp256k1.PrivateKey.canSign_zero`).
-/

namespace Signet

namespace Secp256k1

/-! ## Multiples of the base point -/

section Multiples

variable {generator : curve.Point}

theorem ofGroup_nsmul_base (isBase : Point.ofGroup generator = Point.base) (scalar : Nat) :
    Point.ofGroup (scalar • generator) = Point.base.multiple scalar := by
  rw [Point.ofGroup_nsmul, isBase]

/-- What a verifier adds up is a multiple of the base point. -/
theorem add_multiples (isBase : Point.ofGroup generator = Point.base) (first second scalar : Nat) :
    (Point.base.multiple first).add ((Point.base.multiple scalar).multiple second) =
      Point.ofGroup ((first + second * scalar) • generator) := by
  rw [← ofGroup_nsmul_base isBase, ← ofGroup_nsmul_base isBase, ← Point.ofGroup_nsmul,
    ← Point.ofGroup_add, add_nsmul, mul_nsmul']

/-- Multiples by one number up to multiples of the order are equal. -/
theorem nsmul_eq_of_cast (ofOrder : addOrderOf generator = order) {scalar other : Nat}
    (same : (scalar : ZMod order) = other) : scalar • generator = other • generator := by
  rw [nsmul_eq_nsmul_iff_modEq, ofOrder]
  exact (ZMod.natCast_eq_natCast_iff _ _ _).mp same

/-- Multiples by opposite numbers are opposite. -/
theorem nsmul_eq_neg_of_cast (ofOrder : addOrderOf generator = order) {scalar other : Nat}
    (opposite : (scalar : ZMod order) = -other) :
    scalar • generator = -(other • generator) := by
  rw [eq_neg_iff_add_eq_zero, ← add_nsmul, ← addOrderOf_dvd_iff_nsmul_eq_zero, ofOrder,
    ← ZMod.natCast_eq_zero_iff, Nat.cast_add, opposite, neg_add_cancel]

/-- A multiple of the base point by a number that is not zero up to multiples of the order is
affine. -/
theorem exists_multiple_eq_affine {scalar : Nat} (nonzero : (scalar : ZMod order) ≠ 0) :
    ∃ x y, Point.base.multiple scalar = .affine x y ∧
      (Point.base.multiple scalar).IsOnCurve := by
  obtain ⟨generator, isBase, ofOrder⟩ := exists_generator
  have isOnCurve : (Point.base.multiple scalar).IsOnCurve :=
    Point.isOnCurve_iff.mpr ⟨_, ofGroup_nsmul_base isBase scalar⟩
  cases isMultiple : Point.base.multiple scalar with
  | affine x y => exact ⟨x, y, rfl, isMultiple ▸ isOnCurve⟩
  | infinity =>
    have isZero : scalar • generator = 0 := by
      refine Point.ofGroup_injective ?_
      rw [ofGroup_nsmul_base isBase, isMultiple]
      rfl
    rw [← addOrderOf_dvd_iff_nsmul_eq_zero, ofOrder, ← ZMod.natCast_eq_zero_iff] at isZero
    exact absurd isZero nonzero

theorem cast_ne_zero {number : Nat} (positive : 1 ≤ number) (below : number < order) :
    (number : ZMod order) ≠ 0 := by
  rw [ne_eq, ZMod.natCast_eq_zero_iff]
  exact Nat.not_dvd_of_pos_of_lt positive below

end Multiples

/-! ## Verification -/

/-- What a verifier makes of number and signature is the nonce, whatever the signs. -/
theorem recovers_nonce {nonce number scalar r s inverse : ZMod order} (noNonce : nonce ≠ 0)
    (noS : s ≠ 0) (isS : s = nonce⁻¹ * (number + r * scalar)) (isInverse : inverse = s⁻¹) :
    number * inverse + r * inverse * scalar = nonce := by
  have equation : number + r * scalar = nonce * s := by
    rw [isS, mul_inv_cancel_left₀ noNonce]
  calc number * inverse + r * inverse * scalar = (number + r * scalar) * inverse := by ring
    _ = nonce * (s * s⁻¹) := by rw [equation, isInverse, mul_assoc]
    _ = nonce := by rw [mul_inv_cancel₀ noS, mul_one]

/-! ## Signing -/

variable {key : PrivateKey} {signature : Signature} {nonce number x y : Nat}

/-- What the two halves of a signature are, for a nonce that leads to a point with some first
coordinate. The second half is the smaller one of two opposite numbers. -/
structure Signature.IsMadeWith (signature : Signature) (key : PrivateKey) (nonce number x : Nat) :
    Prop where
  noNonce : (nonce : ZMod order) ≠ 0
  first : signature.r = x % order
  firstPositive : 1 ≤ signature.r
  secondPositive : 1 ≤ signature.s
  secondLow : signature.s ≤ (order - 1) / 2
  second : (signature.s : ZMod order) =
    (nonce : ZMod order)⁻¹ * (number + signature.r * key.scalar) ∨
    (signature.s : ZMod order) = -((nonce : ZMod order)⁻¹ * (number + signature.r * key.scalar))

/-- Of two opposite numbers, the smaller one is at most half of the order. -/
theorem low_half {s : Nat} (nonzero : s ≠ 0) (below : s < order) :
    1 ≤ (if s ≤ order / 2 then s else order - s) ∧
      (if s ≤ order / 2 then s else order - s) ≤ (order - 1) / 2 ∧
      (((if s ≤ order / 2 then s else order - s : Nat) : ZMod order) = s ∨
        ((if s ≤ order / 2 then s else order - s : Nat) : ZMod order) = -s) := by
  have odd : order % 2 = 1 := by decide
  by_cases isLow : s ≤ order / 2
  · rw [if_pos isLow]
    exact ⟨Nat.pos_of_ne_zero nonzero, by omega, Or.inl rfl⟩
  · rw [if_neg isLow]
    refine ⟨by omega, by omega, Or.inr ?_⟩
    rw [Nat.cast_sub below.le, ZMod.natCast_self, zero_sub]

theorem PrivateKey.exists_of_signWith (signs : key.signWith? nonce number = some signature) :
    ∃ x y, Point.base.multiple nonce = .affine x y ∧
      signature.IsMadeWith key nonce number x := by
  unfold signWith? at signs
  split at signs
  next x y inverse isPoint found =>
    dsimp only at signs
    split at signs
    next => cases signs
    next halves =>
      rw [not_or] at halves
      cases signs
      obtain ⟨isInverse, -⟩ := Modular.mul_of_inverse? prime_order.pos found
      have product := (ZMod.natCast_eq_natCast_iff _ _ _).mpr isInverse
      rw [Nat.cast_mul, Nat.cast_one] at product
      obtain ⟨positive, low, signed⟩ := low_half halves.2 (Nat.mod_lt _ prime_order.pos)
      have second : ((inverse * (number + x % order * key.scalar) % order : Nat) : ZMod order) =
          (nonce : ZMod order)⁻¹ * (number + (x % order : Nat) * key.scalar) := by
        rw [← eq_inv_of_mul_eq_one_right product, ZMod.natCast_mod]
        push_cast
        rfl
      rw [second] at signed
      exact ⟨x, y, isPoint, left_ne_zero_of_mul_eq_one product, rfl, Nat.pos_of_ne_zero halves.1,
        positive, low, signed⟩
  next => cases signs

/-- What the verifier adds up leads to the first coordinate that the nonce leads to. -/
theorem Signature.IsMadeWith.exists_recovered (made : signature.IsMadeWith key nonce number x)
    (isPoint : Point.base.multiple nonce = .affine x y) {inverse : Nat}
    (isInverse : (inverse : ZMod order) = (signature.s : ZMod order)⁻¹) :
    ∃ mirrored, (Point.base.multiple (number * inverse % order)).add
      (key.publicKey.multiple (signature.r * inverse % order)) = .affine x mirrored := by
  obtain ⟨generator, isBase, ofOrder⟩ := exists_generator
  have noSecond : (signature.s : ZMod order) ≠ 0 := by
    refine cast_ne_zero made.secondPositive (Nat.lt_of_le_of_lt made.secondLow ?_)
    decide
  have isElement : Point.ofGroup (nonce • generator) = .affine x y :=
    (ofGroup_nsmul_base isBase nonce).trans isPoint
  have added :
      ((number * inverse % order + signature.r * inverse % order * key.scalar : Nat) : ZMod order) =
      number * inverse + signature.r * inverse * key.scalar := by
    rw [Nat.cast_add, Nat.cast_mul, ZMod.natCast_mod, ZMod.natCast_mod, Nat.cast_mul, Nat.cast_mul]
  rw [PrivateKey.publicKey, add_multiples isBase]
  rcases made.second with same | opposite
  · have recovers := recovers_nonce made.noNonce noSecond same isInverse
    rw [nsmul_eq_of_cast ofOrder (added.trans recovers)]
    exact ⟨y, isElement⟩
  · have isNegated : -(inverse : ZMod order) = (-(signature.s : ZMod order))⁻¹ := by
      rw [inv_neg, isInverse]
    have recovers :=
      recovers_nonce made.noNonce (neg_ne_zero.mpr noSecond)
        (neg_eq_iff_eq_neg.mpr opposite) isNegated
    have negated :
        (number : ZMod order) * inverse + signature.r * inverse * key.scalar = -nonce := by
      rw [← recovers]
      ring
    rw [nsmul_eq_neg_of_cast ofOrder (added.trans negated)]
    exact Point.ofGroup_neg isElement

/-- A signature that is made as it should is good under the public key. -/
theorem Signature.IsMadeWith.accepts (made : signature.IsMadeWith key nonce number x)
    (isPoint : Point.base.multiple nonce = .affine x y) :
    signature.Accepts number key.publicKey := by
  have noSecond : (signature.s : ZMod order) ≠ 0 := by
    refine cast_ne_zero made.secondPositive (Nat.lt_of_le_of_lt made.secondLow ?_)
    decide
  obtain ⟨inverse, found, isInverse⟩ := Modular.exists_inverse?_of_prime noSecond
  obtain ⟨mirrored, recovered⟩ := made.exists_recovered isPoint isInverse
  refine ⟨made.firstPositive, made.first ▸ Nat.mod_lt _ prime_order.pos, made.secondPositive,
    Nat.lt_of_le_of_lt made.secondLow (by decide), ?_⟩
  unfold nonceX?
  rw [found]
  dsimp only
  rw [recovered]
  dsimp only
  rw [Option.map_some, made.first]

/-- The private key two signs the number five with the nonce three. -/
example : ((⟨2⟩ : PrivateKey).signWith? 3 5).isSome := by
  decide +kernel

/-! ## Refusals -/

theorem NonceState.nonce?_range {tries : Nat} {state : NonceState}
    (found : state.nonce? tries = some nonce) : 1 ≤ nonce ∧ nonce < order := by
  induction tries generalizing state with
  | zero => cases found
  | succ tries ih =>
    rw [NonceState.nonce?] at found
    split at found
    next inRange =>
      cases found
      exact inRange
    next => exact ih found

/-- That the nonce that is found for a number, if one is found at all, leads to a signature with a
half that is zero. -/
def PrivateKey.HasZeroHalf (key : PrivateKey) (number : Nat) : Prop :=
  ∀ nonce, key.nonce? number = some nonce →
    ∃ x y, Point.base.multiple nonce = .affine x y ∧
      ((x : ZMod order) = 0 ∨ (number + x * key.scalar : ZMod order) = 0)

/-- With a nonce in range, only zero halves are refused. -/
theorem PrivateKey.exists_of_signWith?_eq_none (positive : 1 ≤ nonce) (below : nonce < order)
    (refused : key.signWith? nonce number = none) :
    ∃ x y, Point.base.multiple nonce = .affine x y ∧
      ((x : ZMod order) = 0 ∨ (number + x * key.scalar : ZMod order) = 0) := by
  have noNonce := cast_ne_zero positive below
  obtain ⟨x, y, isPoint, -⟩ := exists_multiple_eq_affine noNonce
  obtain ⟨inverse, found, isInverse⟩ := Modular.exists_inverse?_of_prime noNonce
  refine ⟨x, y, isPoint, ?_⟩
  unfold signWith? at refused
  rw [isPoint, found] at refused
  dsimp only at refused
  split at refused
  next halves =>
    rw [← Nat.dvd_iff_mod_eq_zero, ← Nat.dvd_iff_mod_eq_zero, ← ZMod.natCast_eq_zero_iff,
      ← ZMod.natCast_eq_zero_iff, Nat.cast_mul, isInverse, Nat.cast_add, Nat.cast_mul,
      ZMod.natCast_mod] at halves
    exact halves.imp_right (mul_eq_zero_iff_left (inv_ne_zero noNonce)).mp
  next => cases refused

/-- A digest of sixteen octets or more is signed, unless no nonce is found for it or the nonce that
is found leads to a zero half. -/
theorem PrivateKey.sign?_cases {digest : Octets} (long : 16 ≤ digest.length) :
    (∃ signature nonce x y, key.sign? digest = some signature ∧
        Point.base.multiple nonce = .affine x y ∧
        signature.IsMadeWith key nonce (digestNumber digest) x) ∨
      key.sign? digest = none ∧ key.HasZeroHalf (digestNumber digest) := by
  unfold sign?
  rw [if_neg (Nat.not_lt.mpr long)]
  dsimp only
  cases found : key.nonce? (digestNumber digest) with
  | none => exact Or.inr ⟨rfl, fun nonce other => nomatch found.symm.trans other⟩
  | some nonce =>
    dsimp only
    cases signs : key.signWith? nonce (digestNumber digest) with
    | some signature =>
      obtain ⟨x, y, isPoint, made⟩ := exists_of_signWith signs
      exact Or.inl ⟨signature, nonce, x, y, rfl, isPoint, made⟩
    | none =>
      obtain ⟨positive, below⟩ := NonceState.nonce?_range found
      refine Or.inr ⟨rfl, fun other isOther => ?_⟩
      cases found.symm.trans isOther
      exact exists_of_signWith?_eq_none positive below signs

/-! ## Signatures of zero -/

/-- That the point that a fraction stands for has a first coordinate that is not zero up to the
order: it is neither zero nor the order, and all other multiples of the order are too large for a
coordinate. -/
structure Fraction.HasHalf (fraction : Fraction) : Prop where
  nonzero : fraction.z % fieldSize ≠ 0
  notZero : fraction.x % fieldSize ≠ 0
  notOrder : fraction.x % fieldSize ≠ order * fraction.z % fieldSize

instance (fraction : Fraction) : Decidable fraction.HasHalf :=
  decidable_of_iff
    (fraction.z % fieldSize ≠ 0 ∧ fraction.x % fieldSize ≠ 0 ∧
      fraction.x % fieldSize ≠ order * fraction.z % fieldSize)
    ⟨fun ⟨nonzero, notZero, notOrder⟩ => ⟨nonzero, notZero, notOrder⟩,
      fun ⟨nonzero, notZero, notOrder⟩ => ⟨nonzero, notZero, notOrder⟩⟩

theorem Fraction.HasHalf.cast_ne_zero {fraction : Fraction} {element : curve.Point}
    (hasHalf : fraction.HasHalf) (stands : fraction.StandsFor element)
    (isPoint : Point.ofGroup element = .affine x y) : (x : ZMod order) ≠ 0 := by
  cases stands with
  | @intro x₁ y₁ _ _ first _ =>
    cases isPoint
    intro isZero
    obtain ⟨factor, isMultiple⟩ := (ZMod.natCast_eq_zero_iff _ _).mp isZero
    have below : order * factor < fieldSize := isMultiple ▸ x₁.val_lt
    have few : factor < 2 := by
      by_contra many
      have large : order * 2 ≤ order * factor := Nat.mul_le_mul_left _ (Nat.le_of_not_lt many)
      exact absurd (Nat.lt_of_le_of_lt large below) (by decide)
    have isFirst : x₁ = (order * factor : Nat) := by rw [← isMultiple, ZMod.natCast_zmod_val]
    rw [isFirst, ← Nat.cast_mul, cast_eq_iff_mod] at first
    interval_cases factor
    · exact hasHalf.notZero (by rw [first, Nat.mul_zero, Nat.zero_mul, Nat.zero_mod])
    · exact hasHalf.notOrder (by rw [first, Nat.mul_one])

/-- The fraction that stands for a multiple of the base point. -/
def Fraction.ofBase (scalar : Nat) : Fraction :=
  multiple 0x79be667ef9dcbbac55a06295ce870b07029bfcdb2dce28d959f2815b16f81798
    0x483ada7726a3c4655da4fbfc0e1108a8fd17b448a68554199c47d08ffb10d4b8 scalar

theorem PrivateKey.range_of_ofSeed {seed : String} (derived : ofSeed? seed = some key) :
    1 ≤ key.scalar ∧ key.scalar < order := by
  unfold ofSeed? at derived
  dsimp only at derived
  split at derived
  next inRange =>
    cases derived
    exact inRange
  next => cases derived

/-- The key of a seed signs zero if the nonce that is found leads to a first half, since the second
is then not zero either. -/
theorem PrivateKey.canSign_zero {seed : String} (derived : ofSeed? seed = some key)
    (found : key.nonce? 0 = some nonce) (hasHalf : (Fraction.ofBase nonce).HasHalf) :
    ∀ secret ∈ ofSeed? seed, secret.CanSign 0 := by
  intro secret isSecret
  cases derived.symm.trans isSecret
  obtain ⟨positive, below⟩ := range_of_ofSeed derived
  obtain ⟨noncePositive, nonceBelow⟩ := NonceState.nonce?_range found
  cases signs : key.signWith? nonce 0 with
  | some signature => exact ⟨nonce, signature, found, signs⟩
  | none =>
    obtain ⟨x, y, isPoint, zeroHalf⟩ :=
      exists_of_signWith?_eq_none noncePositive nonceBelow signs
    obtain ⟨generator, isBase, -⟩ := exists_generator
    have zNonzero : ((Fraction.ofBase nonce).z : Coordinate) ≠ 0 := by
      rw [ne_eq, ZMod.natCast_eq_zero_iff, Nat.dvd_iff_mod_eq_zero]
      exact hasHalf.nonzero
    have stands := Fraction.multiple_standsFor isBase noncePositive zNonzero
    have first := hasHalf.cast_ne_zero stands ((ofGroup_nsmul_base isBase nonce).trans isPoint)
    rw [Nat.cast_zero, zero_add, mul_eq_zero, or_iff_left (cast_ne_zero positive below), or_self]
      at zeroHalf
    exact absurd zeroHalf first

theorem PrivateKey.ofSeed?_one : ofSeed? "one" =
    some ⟨0x7692c3ad3540bb803c020b3aee66cd8887123234ea0c6e7143c0add73ff431ed⟩ := by
  unfold ofSeed?
  rw [Sha256.hash_eq_numbers]
  decide +kernel

theorem PrivateKey.ofSeed?_two : ofSeed? "two" =
    some ⟨0x3fc4ccfe745870e2c0d99f71f30ff0656c8dedd41cc1d7d3d376b0dbe685e2f3⟩ := by
  unfold ofSeed?
  rw [Sha256.hash_eq_numbers]
  decide +kernel

theorem PrivateKey.canSign_zero_of_one : ∀ secret ∈ ofSeed? "one", secret.CanSign 0 := by
  have found : nonce? ⟨0x7692c3ad3540bb803c020b3aee66cd8887123234ea0c6e7143c0add73ff431ed⟩ 0 =
      some 0xbc5c0f28f4cc8d731d4403b5fe4c3e1d708c5ea7c464500508343b79e07774f3 := by
    unfold nonce? NonceState.nonce?
    simp only [NonceState.mix, Hmac.sha256_eq_numbers]
    decide +kernel
  exact canSign_zero ofSeed?_one found (by decide +kernel)

theorem PrivateKey.canSign_zero_of_two : ∀ secret ∈ ofSeed? "two", secret.CanSign 0 := by
  have found : nonce? ⟨0x3fc4ccfe745870e2c0d99f71f30ff0656c8dedd41cc1d7d3d376b0dbe685e2f3⟩ 0 =
      some 0xcc19a82ec8ff8ff86619f082610087afde4a9f1491a25988475ace4c2762c5ea := by
    unfold nonce? NonceState.nonce?
    simp only [NonceState.mix, Hmac.sha256_eq_numbers]
    decide +kernel
  exact canSign_zero ofSeed?_two found (by decide +kernel)

/-! ## Texts of signatures -/

/-- Takes a signature out of its encoding. -/
def readSignature? (octets : Octets) : Option Signature := do
  let halves ← Der.whole? (Der.readElement? 0x30 octets)
  let (r, behind) ← Der.readInteger? halves
  let s ← Der.whole? (Der.readInteger? behind)
  return ⟨r, s⟩

/-- What is read as a signature is the encoding of this signature. -/
theorem encode_of_readSignature? {octets : Octets} (read : readSignature? octets = some signature) :
    octets = signature.encode := by
  unfold readSignature? at read
  obtain ⟨halves, isSequence, read⟩ := Option.bind_eq_some_iff.mp read
  obtain ⟨⟨r, behind⟩, isFirst, read⟩ := Option.bind_eq_some_iff.mp read
  obtain ⟨s, isSecond, read⟩ := Option.bind_eq_some_iff.mp read
  cases read
  have sequence := Der.eq_of_readElement? (Der.eq_of_whole? isSequence)
  have first := Der.eq_of_readInteger? isFirst
  have second := Der.eq_of_readInteger? (Der.eq_of_whole? isSecond)
  rw [List.append_nil] at sequence second
  rw [Signature.encode, Der.sequence_pair, sequence, first, second]

/-- A number below the order has a short encoding. -/
theorem log2_lt_of_lt (below : number < order) : number.log2 < 2 ^ 32 := by
  by_cases isZero : number = 0
  · rw [isZero]
    decide
  · exact Nat.lt_trans
      ((Nat.log2_lt isZero).mpr (Nat.lt_trans below (show order < 2 ^ 256 by decide))) (by decide)

/-- A signature is read back. -/
theorem readSignature?_encode (first : signature.r < order) (second : signature.s < order) :
    readSignature? signature.encode = some signature := by
  have firstShort := log2_lt_of_lt first
  have secondShort := log2_lt_of_lt second
  have halvesShort : Der.IsShort (Der.integer signature.r ++ Der.integer signature.s) := by
    have firstLength := Der.length_integer_le firstShort
    have secondLength := Der.length_integer_le secondShort
    rw [Der.IsShort, List.length_append]
    omega
  have secondAlone := Der.readInteger?_integer (Nat.lt_trans secondShort (by decide)) []
  rw [List.append_nil] at secondAlone
  rw [Signature.encode, Der.sequence_pair, readSignature?,
    Der.readElement?_element_alone halvesShort]
  dsimp only [Der.whole?, Option.bind_eq_bind, Option.bind_some]
  rw [Der.readInteger?_integer (Nat.lt_trans firstShort (by decide))]
  dsimp only [Option.bind_some]
  rw [secondAlone]
  rfl

/-! ## Digests -/

/-- What is signed of a digest: its first thirty-two octets, behind zeros if there are less. -/
def prehash (digest : Octets) : Octets :=
  List.replicate (32 - digest.length) 0 ++ digest.take 32

theorem toNat_replicate_zero (count : Nat) : Octets.toNat (List.replicate count 0) = 0 := by
  induction count with
  | zero => rfl
  | succ count ih => exact ih

/-- Zeros have the number zero, however many there are. -/
theorem digestNumber_replicate_zero (count : Nat) : digestNumber (List.replicate count 0) = 0 := by
  rw [digestNumber, List.take_replicate, toNat_replicate_zero]

/-- Leading zeros do not change the number of a digest. -/
theorem digestNumber_eq (digest : Octets) :
    digestNumber digest = Octets.toNat (prehash digest) := by
  rw [prehash, Octets.toNat_append, toNat_replicate_zero, Nat.zero_mul, Nat.zero_add, digestNumber]

/-- That octets are a signature of a number, good under a public key, and how they are written. -/
structure IsSignature (publicKey : Point) (number : Nat) (octets : Octets) (signature : Signature) :
    Prop where
  written : octets = signature.encode
  read : readSignature? octets = some signature
  low : signature.s ≤ (order - 1) / 2
  accepts : signature.Accepts number publicKey

theorem Signature.IsMadeWith.isSignature (made : signature.IsMadeWith key nonce number x)
    (isPoint : Point.base.multiple nonce = .affine x y) :
    IsSignature key.publicKey number signature.encode signature := by
  have accepts := made.accepts isPoint
  exact ⟨rfl, readSignature?_encode accepts.2.1 accepts.2.2.2.1, made.secondLow, accepts⟩

end Secp256k1

/-- That a key signs with ECDSA for a private key: it prints the public key, it signs what is long
enough unless no nonce is found or the nonce that is found leads to a zero half, it refuses what is
shorter, and all that it looks at are the first thirty-two octets. -/
structure DigestSigner.SignsOver (signer : DigestSigner) (key : Secp256k1.PrivateKey) : Prop where
  printed : ∃ pem, signer.publicKeyPem = .value pem ∧
    Secp256k1.readPublicKey? pem = some key.publicKey
  signs : ∀ (digest : Octets) (hash : HashAlgorithm), 16 ≤ digest.length →
    (∃ octets signature, signer.sign digest hash = .value octets ∧
        Secp256k1.IsSignature key.publicKey (Octets.toNat (Secp256k1.prehash digest)) octets
          signature) ∨
      ∃ failure, signer.sign digest hash = .failed failure ∧
        key.HasZeroHalf (Octets.toNat (Secp256k1.prehash digest))
  refuses : ∀ (digest : Octets) (hash : HashAlgorithm), digest.length < 16 →
    ∃ failure, signer.sign digest hash = .failed failure
  depends : ∀ (digest other : Octets) (hash otherHash : HashAlgorithm), 16 ≤ digest.length →
    16 ≤ other.length → Secp256k1.prehash digest = Secp256k1.prehash other →
      signer.sign digest hash = signer.sign other otherHash

namespace Secp256k1

/-- A key in range signs as it should. -/
theorem PrivateKey.signsOver {key : PrivateKey} (positive : 1 ≤ key.scalar)
    (below : key.scalar < order) : (DigestSigner.ofSecp256k1 key).SignsOver key := by
  obtain ⟨x, y, isPoint, isOnCurve⟩ := exists_multiple_eq_affine (cast_ne_zero positive below)
  refine ⟨⟨_, rfl, readPublicKey?_publicKeyPem isPoint isOnCurve⟩, fun digest hash long => ?_,
    fun digest hash short => ?_, fun digest other hash otherHash long otherLong same => ?_⟩
  · rw [← digestNumber_eq]
    unfold DigestSigner.ofSecp256k1
    dsimp only
    rcases key.sign?_cases long with
      ⟨signature, nonce, x, y, signs, isPoint, made⟩ | ⟨refused, zeroHalf⟩
    · rw [signs]
      exact Or.inl ⟨_, signature, rfl, made.isSignature isPoint⟩
    · rw [refused]
      exact Or.inr ⟨_, rfl, zeroHalf⟩
  · unfold DigestSigner.ofSecp256k1 sign?
    dsimp only
    rw [if_pos short]
    exact ⟨_, rfl⟩
  · unfold DigestSigner.ofSecp256k1 sign?
    dsimp only
    rw [if_neg (Nat.not_lt.mpr long), if_neg (Nat.not_lt.mpr otherLong), digestNumber_eq,
      digestNumber_eq, same]

end Secp256k1

/-! ## Keys of seeds -/

/-- **secp256k1 signatures verify.** Every seed that gives a curve key gives one that signs each
digest of sixteen octets or more, unless no nonce is found for it or the nonce that is found leads
to a zero half. The signature is the strict encoding of two numbers, which is read back and has no
second form; its second half is the smaller one of two; and it is good, for the first thirty-two
octets of the digest, under the point that the key prints. Shorter digests are refused. Neither the
hash nor what stands behind the first thirty-two octets changes the signature. -/
theorem secp256k1_signatures_verify :
    (∀ octets signature, Secp256k1.readSignature? octets = some signature →
      octets = signature.encode) ∧
    ∀ seed signer, KeyAlgorithm.secp256k1.deriveKey seed = .ok signer →
      ∃ key, Secp256k1.PrivateKey.ofSeed? seed = some key ∧ signer.SignsOver key := by
  refine ⟨fun octets signature => Secp256k1.encode_of_readSignature?,
    fun seed signer derived => ?_⟩
  cases KeyAlgorithm.deriveKey_eq_ok_iff.mp derived with
  | @secp256k1 key ofSeed =>
    obtain ⟨positive, below⟩ := Secp256k1.PrivateKey.range_of_ofSeed ofSeed
    exact ⟨key, ofSeed, key.signsOver positive below⟩

/-- The seed `one` gives such a key. It refuses five octets for every hash, and gives thirty-two
zeros a signature that is good for them. They have the same signature for another hash and when more
octets follow. -/
theorem secp256k1_signatures_verify_for_one :
    ∃ key signer octets signature, KeyAlgorithm.secp256k1.deriveKey "one" = .ok signer ∧
      signer.SignsOver key ∧
      (∀ hash, ∃ failure, signer.sign [104, 101, 108, 108, 111] hash = .failed failure) ∧
      signer.sign (List.replicate 32 0) .sha256 = .value octets ∧
      Secp256k1.IsSignature key.publicKey 0 octets signature ∧
      signer.sign (List.replicate 32 0 ++ [1, 2, 3]) .sha512 = .value octets := by
  have derives := KeyAlgorithm.Derives.secp256k1 Secp256k1.PrivateKey.ofSeed?_one
  have derived := KeyAlgorithm.deriveKey_eq_ok_iff.mpr derives
  obtain ⟨key, -, signs⟩ := secp256k1_signatures_verify.2 "one" _ derived
  have isZero := Secp256k1.digestNumber_replicate_zero 32
  have accepts : KeyAlgorithm.secp256k1.Accepts (List.replicate 32 0) .sha256 := by decide
  obtain ⟨octets, isSigned⟩ := derives.sign_of_accepts accepts fun secret _ isSecret => by
    rw [isZero]
    exact Secp256k1.PrivateKey.canSign_zero_of_one secret isSecret
  have again := signs.depends (List.replicate 32 0 ++ [1, 2, 3]) (List.replicate 32 0)
    .sha512 .sha256 (by decide) (by decide) (by decide)
  rcases signs.signs (List.replicate 32 0) .sha256 (by decide) with
    ⟨_, signature, signed, isSignature⟩ | ⟨failure, fails, -⟩
  · cases isSigned.symm.trans signed
    rw [← Secp256k1.digestNumber_eq, isZero] at isSignature
    exact ⟨key, _, octets, signature, derived, signs,
      fun hash => signs.refuses _ hash (by decide), isSigned, isSignature, again.trans isSigned⟩
  · exact nomatch isSigned.symm.trans fails

end Signet
