import Signet.Base64

/-!
# PEM

Public keys are handed out as text: the base64 form of their encoding in lines of sixty-four
symbols, between two boundary lines.
-/

namespace Signet.Pem

/-- Cuts symbols into lines of at most sixty-four, each closed by a line feed. The fuel is at least
the number of symbols. -/
def linesWith (fuel : Nat) (symbols : List Char) : String :=
  match fuel, symbols with
  | 0, _ | _, [] => ""
  | fuel + 1, symbols =>
    String.ofList (symbols.take 64) ++ "\n" ++ linesWith fuel (symbols.drop 64)

def publicKey (encoded : Octets) : String :=
  let symbols := (Base64.encode encoded).toList
  "-----BEGIN PUBLIC KEY-----\n" ++ linesWith symbols.length symbols ++
    "-----END PUBLIC KEY-----\n"

end Signet.Pem
