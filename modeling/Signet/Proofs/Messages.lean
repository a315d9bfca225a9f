import Signet.Proofs.MessageMeanings
import Signet.Proofs.WrittenValues

/-!
# Messages are read back

What is written for a message is read as this message, whatever texts it holds: it is written for a
value (`Json.Writes`) that means the message. So it is read back as well if blanks are put between
its tokens, and different messages are written differently (`Json.RoundTrips`).
-/

namespace Signet

namespace Json

/-- That a value is read back from what is written for it. -/
structure RoundTrips {α : Type} (reader : Reader α) (write : α → String) : Prop where
  reads : ∀ value, readWhole reader (Octets.ofText (write value)) = .ok value
  /-- Different values are written differently. -/
  injective : Function.Injective write
  /-- What is written is made of tokens in one way, and any text that is made of these tokens, with
  blanks wherever there are some before, between or behind them, is read as the same value. -/
  spaced : ∀ value, ∃ tokens, Spans tokens (Octets.ofText (write value)) [] ∧
    (∀ others, Spans others (Octets.ofText (write value)) [] → others = tokens) ∧
    ∀ text blanks, Spans tokens text blanks → Cursor.AreBlank blanks →
      readWhole reader text = .ok value

/-- A value is read back if what is written for it means it. -/
theorem Understands.roundTrips {α : Type} {reader : Reader α} {write : α → String}
    {Means : Value → α → Prop} (understands : Understands reader Means) (tree : α → Value)
    (writes : ∀ value, Writes (write value) (tree value))
    (means : ∀ value, Means (tree value) value) :
    RoundTrips reader write := by
  have reads value : readWhole reader (Octets.ofText (write value)) = .ok value :=
    (((writes value).isJson rfl).readWhole_eq_ok_iff understands).mpr (means value)
  refine ⟨reads, fun value other same => ?_, fun value => ?_⟩
  · have readOther := reads other
    rw [← same, reads value] at readOther
    exact Except.ok.inj readOther
  · obtain ⟨tokens, spans, -⟩ := (writes value).stands.exists_spans
    refine ⟨tokens, spans, fun others spansOther => ?_,
      fun text blanks spansText areBlank => ?_⟩
    · exact spansOther.unique spans Cursor.areBlank_nil Cursor.areBlank_nil
    · have isSpaced :=
        ((writes value).isJson rfl).of_spans spans Cursor.areBlank_nil spansText areBlank
      exact (isSpaced.readWhole_eq_ok_iff understands).mpr (means value)

end Json

open Json (Value RoundTrips IsUnambiguous Writes named writes_null writes_text writes_list
  writes_object)

/-! ## Messages -/

namespace KeyReference

def tree (key : KeyReference) : Value :=
  .object (named [("identifier", .text (some key.identifier))])

theorem writes (key : KeyReference) : Writes key.write key.tree :=
  writes_object (.cons ((writes_text key.identifier).member _) .nil)

theorem means_tree (key : KeyReference) : Means key.tree key :=
  ⟨_, rfl, by simp [IsUnambiguous], rfl⟩

theorem reads_write : RoundTrips read write :=
  understands_read.roundTrips tree writes means_tree

/-- The value that is written for a key reference or for nothing. -/
def treeOption (key? : Option KeyReference) : Value :=
  (key?.map tree).getD .null

theorem writesOption (key? : Option KeyReference) :
    Writes (writeOption key?) (treeOption key?) := by
  cases key? with
  | none => exact writes_null
  | some key => exact key.writes

theorem meansOption_tree (key? : Option KeyReference) :
    Json.MeansOption Means (treeOption key?) key? := by
  cases key? with
  | none => exact rfl
  | some key => exact key.means_tree

theorem reads_writeOption : RoundTrips readOption writeOption :=
  understands_readOption.roundTrips treeOption writesOption meansOption_tree

end KeyReference

theorem SigningRequest.reads_write : RoundTrips read write := by
  refine understands_read.roundTrips
    (fun request => .object (named
      [("keyMeta", KeyReference.treeOption request.key?), ("digest", .text (some request.digest)),
       ("hashAlgorithm", .text (some request.hash))]))
    (fun request => ?_) (fun request => ?_)
  · exact writes_object (.cons ((KeyReference.writesOption request.key?).member _)
      (.cons ((writes_text request.digest).member _)
        (.cons ((writes_text request.hash).member _) .nil)))
  · exact ⟨_, rfl, by simp [IsUnambiguous],
      KeyReference.meansOption_tree request.key?, rfl, rfl⟩

theorem KeyListing.reads_write : RoundTrips read write := by
  refine understands_read.roundTrips
    (fun listing => .object (named [("keys", .list (listing.keys.map KeyReference.tree))]))
    (fun listing => ?_) (fun listing => ?_)
  · have areWritten : List.Forall₂ Writes (listing.keys.map KeyReference.write)
        (listing.keys.map KeyReference.tree) := by
      rw [List.forall₂_map_left_iff, List.forall₂_map_right_iff]
      exact List.forall₂_same.mpr fun key _ => key.writes
    exact writes_object (.cons ((writes_list areWritten).member _) .nil)
  · have mean : List.Forall₂ KeyReference.Means (listing.keys.map KeyReference.tree)
        listing.keys := by
      rw [List.forall₂_map_left_iff]
      exact List.forall₂_same.mpr fun key _ => key.means_tree
    exact ⟨_, rfl, by simp [IsUnambiguous], _, rfl, _, rfl, mean⟩

theorem PublicKey.reads_write : RoundTrips read write := by
  refine understands_read.roundTrips
    (fun key => .object (named [("key", .text (some key.key))])) (fun key => ?_) (fun key => ?_)
  · exact writes_object (.cons ((writes_text key.key).member _) .nil)
  · exact ⟨_, rfl, by simp [IsUnambiguous], _, rfl, rfl⟩

theorem Signature.reads_write : RoundTrips read write := by
  refine understands_read.roundTrips
    (fun signature => .object (named [("signature", .text (some signature.signature))]))
    (fun signature => ?_) (fun signature => ?_)
  · exact writes_object (.cons ((writes_text signature.signature).member _) .nil)
  · exact ⟨_, rfl, by simp [IsUnambiguous], _, rfl, rfl⟩

/-- **Messages are read back.** Whatever texts it holds, every message is read from what is written
for it and from the same tokens with any blanks between them, and no two messages are written in the
same way. -/
theorem messages_round_trip :
    RoundTrips KeyReference.read KeyReference.write ∧
      RoundTrips KeyReference.readOption KeyReference.writeOption ∧
      RoundTrips SigningRequest.read SigningRequest.write ∧
      RoundTrips KeyListing.read KeyListing.write ∧
      RoundTrips PublicKey.read PublicKey.write ∧
      RoundTrips Signature.read Signature.write :=
  ⟨KeyReference.reads_write, KeyReference.reads_writeOption, SigningRequest.reads_write,
    KeyListing.reads_write, PublicKey.reads_write, Signature.reads_write⟩

end Signet
