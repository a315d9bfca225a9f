import Signet.Proofs.Messages

/-!
# Requests are read by name

What an object means as a request depends on nothing but what its known names have
(`Json.ReadsByName`): not on the order of its members, and not on members of other names, whatever
they hold and however deep it is nested. No name of a field may be given twice, so nobody can name
two keys or two digests in one request.
-/

namespace Signet

namespace Json

/-- That texts are read as records by the names of the fields, none of which has to be there.
`HasType` says of a name and a value whether the value may have it, and `Fits` what members come
to. -/
structure ReadsByName {α : Type} (reader : Reader α) (names : List String)
    (HasType : String → Value → Prop) (Fits : List (String × Value) → α → Prop) :
    Prop where
  /-- An object is read if and only if no name of a field is given twice and all that are given have
  values of their types. -/
  accepts_iff : ∀ text members, IsJson (.object (named members)) text →
    ((∃ value, readWhole reader text = .ok value) ↔
      (∀ name ∈ names, (members.map Prod.fst).count name ≤ 1) ∧
        ∀ name ∈ names, ∀ tree, (name, tree) ∈ members → HasType name tree)
  /-- It is read as what its members come to. -/
  fits : ∀ text members value, IsJson (.object (named members)) text →
    readWhole reader text = .ok value → Fits members value
  /-- Objects that give the same to the names of the fields are not read as different values. -/
  determined : ∀ text other members others value otherValue,
    IsJson (.object (named members)) text → IsJson (.object (named others)) other →
    (∀ name ∈ names, members.lookup name = others.lookup name) →
    readWhole reader text = .ok value → readWhole reader other = .ok otherValue →
    value = otherValue
  /-- A list is read as the object is that gives its items to the names of the fields in their
  order. -/
  list_iff : ∀ text object items, IsJson (.list items) text →
    IsJson (.object (named (names.zip items))) object → items.length ≤ names.length →
    ∀ value, readWhole reader text = .ok value ↔ readWhole reader object = .ok value
  /-- A list with more items than there are fields is refused. -/
  refuses_long : ∀ text items, IsJson (.list items) text → names.length < items.length →
    ∃ fault, readWhole reader text = .error fault
  /-- An object that gives the name of a field twice is refused, whatever else it has. -/
  refuses_repeated : ∀ text members name, IsJson (.object members) text → name ∈ names →
    2 ≤ (members.map Prod.fst).count (some name) →
      ∃ fault, readWhole reader text = .error fault

section ReadsByName

variable {α : Type} {reader : Reader α} {names : List String}
  {HasType : String → Value → Prop} {Fits : List (String × Value) → α → Prop}

/-- An object is read as what its members come to, if none of the names is given twice. -/
theorem IsJson.readWhole_named_iff {text : Octets} {members : List (String × Value)} {value : α}
    (isJson : IsJson (.object (named members)) text)
    (understands : Understands reader (MeansRecord names false Fits)) :
    readWhole reader text = .ok value ↔
      (∀ name ∈ names, (members.map Prod.fst).count name ≤ 1) ∧ Fits members value := by
  rw [isJson.readWhole_eq_ok_iff understands]
  constructor
  · rintro ⟨others, gives, ⟨areSingle, -⟩, fits⟩
    obtain rfl := named_injective gives
    exact ⟨areSingle, fits⟩
  · rintro ⟨areSingle, fits⟩
    exact ⟨members, rfl, ⟨areSingle, nofun⟩, fits⟩

theorem Understands.readsByName (understands : Understands reader (MeansRecord names false Fits))
    (fits_iff : ∀ members, (∃ value, Fits members value) ↔
      ∀ name ∈ names, ∀ tree, members.lookup name = some tree → HasType name tree)
    (fits_congr : ∀ members others,
      (∀ name ∈ names, members.lookup name = others.lookup name) →
      ∀ value, Fits members value → Fits others value) :
    ReadsByName reader names HasType Fits where
  accepts_iff text members isJson := by
    simp only [isJson.readWhole_named_iff understands, exists_and_left]
    rw [fits_iff]
    refine and_congr_right fun areSingle => ?_
    refine forall_congr' fun name => forall_congr' fun isName => forall_congr' fun tree => ?_
    rw [lookup_eq_some_iff (areSingle name isName)]
  fits text members value isJson isRead :=
    ((isJson.readWhole_named_iff understands).mp isRead).2
  determined text other members others value otherValue isJson isOther same isRead isReadOther := by
    obtain ⟨areSingle, -⟩ := (isJson.readWhole_named_iff understands).mp isRead
    obtain ⟨-, fits⟩ := (isOther.readWhole_named_iff understands).mp isReadOther
    have fits := fits_congr others members (fun name isName => (same name isName).symm) _ fits
    have isSame := (isJson.readWhole_named_iff understands).mpr ⟨areSingle, fits⟩
    exact Except.ok.inj (isRead.symm.trans isSame)
  list_iff text object items isJson isObject isShort value := by
    rw [isObject.readWhole_named_iff understands, isJson.readWhole_eq_ok_iff understands]
    constructor
    · rintro ⟨_, ⟨-, rfl⟩, ⟨areSingle, -⟩, fits⟩
      exact ⟨areSingle, fits⟩
    · rintro ⟨areSingle, fits⟩
      exact ⟨_, ⟨isShort, rfl⟩, ⟨areSingle, nofun⟩, fits⟩
  refuses_long text items isJson isLong := by
    refine exists_fault fun value isRead => ?_
    obtain ⟨_, ⟨isShort, -⟩, -⟩ := (isJson.readWhole_eq_ok_iff understands).mp isRead
    omega
  refuses_repeated text members name isJson isName isRepeated := by
    refine exists_fault fun value isRead => ?_
    obtain ⟨others, rfl, ⟨areSingle, -⟩, -⟩ :=
      (isJson.readWhole_eq_ok_iff understands).mp isRead
    rw [count_named] at isRepeated
    have isSingle := areSingle name isName
    omega

end ReadsByName

end Json

open Json (Value ReadsByName IsJson MeansText MeansOption exists_meansOr_iff exists_fault
  lookup_eq_some_iff count_named named readWhole writes_null writes_text writes_list writes_object)

/-- The types of the fields of a key reference. -/
def KeyReference.HasType (_ : String) (tree : Value) : Prop :=
  ∃ identifier, tree = .text (some identifier)

theorem KeyReference.readsByName : ReadsByName read ["identifier"] HasType Fits := by
  refine understands_read.readsByName (fun members => ?_) (fun members others same key fits => ?_)
  · have exists_iff : (∃ key, Fits members key) ↔
        ∃ identifier, Json.MeansOr MeansText "" (members.lookup "identifier") identifier :=
      ⟨fun ⟨key, fits⟩ => ⟨key.identifier, fits⟩,
        fun ⟨identifier, fits⟩ => ⟨⟨identifier⟩, fits⟩⟩
    rw [exists_iff, exists_meansOr_iff]
    simp [HasType, MeansText]
  · unfold Fits at *
    rwa [← same "identifier" (.head _)]

/-- The types of the fields of a signing request: nothing or a key reference, and two texts. -/
def SigningRequest.HasType (name : String) (tree : Value) : Prop :=
  if name = "keyMeta" then tree = .null ∨ ∃ key, KeyReference.Means tree key
  else ∃ text, tree = .text (some text)

theorem SigningRequest.readsByName :
    ReadsByName read ["keyMeta", "digest", "hashAlgorithm"] HasType Fits := by
  refine understands_read.readsByName (fun members => ?_)
    (fun members others same request fits => ?_)
  · have exists_iff : (∃ request, Fits members request) ↔
        (∃ key?, Json.MeansOr (MeansOption KeyReference.Means) none
          (members.lookup "keyMeta") key?) ∧
        (∃ digest, Json.MeansOr MeansText "" (members.lookup "digest") digest) ∧
          ∃ hash, Json.MeansOr MeansText "" (members.lookup "hashAlgorithm") hash := by
      constructor
      · rintro ⟨⟨key?, digest, hash⟩, isKey, isDigest, isHash⟩
        exact ⟨⟨key?, isKey⟩, ⟨digest, isDigest⟩, ⟨hash, isHash⟩⟩
      · rintro ⟨⟨key?, isKey⟩, ⟨digest, isDigest⟩, ⟨hash, isHash⟩⟩
        exact ⟨⟨key?, digest, hash⟩, isKey, isDigest, isHash⟩
    rw [exists_iff, exists_meansOr_iff, exists_meansOr_iff, exists_meansOr_iff]
    simp [HasType, MeansText, MeansOption, Option.exists]
  · unfold Fits at *
    rwa [← same "keyMeta" (by simp), ← same "digest" (by simp),
      ← same "hashAlgorithm" (by simp)]

/-- What a key reference that is given means in a request. -/
theorem SigningRequest.means_of_keyMeta {tree part : Value} {request : SigningRequest}
    (means : Means tree request)
    (has : tree.Has ["keyMeta", "digest", "hashAlgorithm"] "keyMeta" part) :
    MeansOption KeyReference.Means part request.key? := by
  obtain ⟨members, gives, ⟨areSingle, -⟩, fits, -⟩ := means
  rwa [(lookup_eq_some_iff (areSingle _ (.head _))).mpr (gives.mem_of_has has)] at fits

/-- **Requests are read by name.** What an object means as a signing request or as a key reference
depends on what the names of the fields have and on nothing else; a list means what the object with
its items does. Neither a field of a request nor the identifier of its key can be given twice. -/
theorem requests_are_read_by_name :
    ReadsByName SigningRequest.read ["keyMeta", "digest", "hashAlgorithm"] SigningRequest.HasType
      SigningRequest.Fits ∧
    ReadsByName KeyReference.read ["identifier"] KeyReference.HasType KeyReference.Fits ∧
    ∀ text tree members, IsJson tree text →
      tree.Has ["keyMeta", "digest", "hashAlgorithm"] "keyMeta" (.object members) →
      2 ≤ (members.map Prod.fst).count (some "identifier") →
      ∃ fault, readWhole SigningRequest.read text = .error fault := by
  refine ⟨SigningRequest.readsByName, KeyReference.readsByName, ?_⟩
  intro text tree members isJson has isRepeated
  refine exists_fault fun request isRead => ?_
  have means := (isJson.readWhole_eq_ok_iff SigningRequest.understands_read).mp isRead
  have meansKey := SigningRequest.means_of_keyMeta means has
  cases isPresent : request.key? with
  | none =>
    rw [isPresent] at meansKey
    cases meansKey
  | some key =>
    rw [isPresent] at meansKey
    obtain ⟨others, rfl, ⟨areSingle, -⟩, -⟩ := meansKey
    rw [count_named] at isRepeated
    have isSingle := areSingle "identifier" (.head _)
    omega

/-- A request that names two keys, one with two digests and a list of two identifiers are refused.
In which order members stand does not matter, nor what a member of another name holds, and a list
can be given instead. -/
theorem requests_are_read_by_name_of_repeated_and_reordered_members :
    (∃ fault, readWhole SigningRequest.read (Octets.ofText
      "\x7b\"keyMeta\":\x7b\"identifier\":\"key1\",\"identifier\":\"key2\"\x7d\x7d") =
        .error fault) ∧
    (∃ fault, readWhole SigningRequest.read (Octets.ofText
      "\x7b\"digest\":\"aGk=\",\"digest\":\"aGk=\"\x7d") = .error fault) ∧
    (∃ fault, readWhole KeyReference.read (Octets.ofText "[\"key1\",\"key2\"]") =
      .error fault) ∧
    ∃ request,
      SigningRequest.Fits [("keyMeta", .null), ("digest", .text (some "aGk="))] request ∧
      readWhole SigningRequest.read (Octets.ofText
        "\x7b\"keyMeta\":null,\"digest\":\"aGk=\"\x7d") = .ok request ∧
      readWhole SigningRequest.read (Octets.ofText
        "\x7b\"digest\":\"aGk=\",\"other\":[null],\"keyMeta\":null\x7d") = .ok request ∧
      readWhole SigningRequest.read (Octets.ofText "[null,\"aGk=\"]") = .ok request := by
  obtain ⟨requests, references, keys⟩ := requests_are_read_by_name
  have null := writes_null
  have digest := writes_text "aGk="
  have first := writes_text "key1"
  have second := writes_text "key2"
  have twoKeys : IsJson (.object (named [("keyMeta", .object (named
      [("identifier", .text (some "key1")), ("identifier", .text (some "key2"))]))]))
      (Octets.ofText
        "\x7b\"keyMeta\":\x7b\"identifier\":\"key1\",\"identifier\":\"key2\"\x7d\x7d") := by
    have key := writes_object (.cons (first.member "identifier")
      (.cons (second.member "identifier") .nil))
    exact (writes_object (.cons (key.member _) .nil)).isJson (by decide +kernel)
  have twoDigests : IsJson (.object (named
      [("digest", .text (some "aGk=")), ("digest", .text (some "aGk="))]))
      (Octets.ofText "\x7b\"digest\":\"aGk=\",\"digest\":\"aGk=\"\x7d") :=
    (writes_object (.cons (digest.member _) (.cons (digest.member _) .nil))).isJson
      (by decide +kernel)
  have long : IsJson (.list [.text (some "key1"), .text (some "key2")])
      (Octets.ofText "[\"key1\",\"key2\"]") :=
    (writes_list (.cons first (.cons second .nil))).isJson (by decide +kernel)
  have direct : IsJson (.object (named [("keyMeta", .null), ("digest", .text (some "aGk="))]))
      (Octets.ofText "\x7b\"keyMeta\":null,\"digest\":\"aGk=\"\x7d") :=
    (writes_object (.cons (null.member _) (.cons (digest.member _) .nil))).isJson
      (by decide +kernel)
  have reordered : IsJson (.object (named
      [("digest", .text (some "aGk=")), ("other", .list [.null]), ("keyMeta", .null)]))
      (Octets.ofText "\x7b\"digest\":\"aGk=\",\"other\":[null],\"keyMeta\":null\x7d") := by
    have other := writes_list (.cons null .nil)
    exact (writes_object (.cons (digest.member _) (.cons (other.member _)
      (.cons (null.member _) .nil)))).isJson (by decide +kernel)
  have list : IsJson (.list [.null, .text (some "aGk=")]) (Octets.ofText "[null,\"aGk=\"]") :=
    (writes_list (.cons null (.cons digest .nil))).isJson (by decide +kernel)
  refine ⟨keys _ _ _ twoKeys (.head _) (by decide),
    requests.refuses_repeated _ _ "digest" twoDigests (by decide) (by decide),
    references.refuses_long _ _ long (by decide), ?_⟩
  obtain ⟨request, read⟩ := (requests.accepts_iff _ _ direct).mpr
    ⟨by decide, by simp [SigningRequest.HasType]⟩
  obtain ⟨other, readOther⟩ := (requests.accepts_iff _ _ reordered).mpr
    ⟨by decide, by simp [SigningRequest.HasType]⟩
  have same : other = request := by
    refine requests.determined _ _ _ _ _ _ reordered direct ?_ readOther read
    simp only [List.forall_mem_cons]
    exact ⟨rfl, rfl, rfl, nofun⟩
  rw [same] at readOther
  exact ⟨request, requests.fits _ _ _ direct read, read, readOther,
    (requests.list_iff _ _ _ list direct (by decide) _).mpr read⟩

end Signet
