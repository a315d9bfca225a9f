import Signet.Decimal.Shortest

/-!
# The text of a floating-point number

The shortest digits are written positionally from `10 ^ -5` up to but not including `10 ^ 16`, with
a point and at least one digit behind it, and with an exponent and its sign beyond.
-/

namespace Signet.Decimal

/-- Takes zeros off the end of digits. -/
def Digits.trimmed : (tries : Nat) → Digits → Digits
  | 0, number => number
  | tries + 1, number =>
    if number.digits ≠ 0 ∧ number.digits % 10 = 0 then
      Digits.trimmed tries ⟨number.digits / 10, number.exponent + 1⟩
    else number

/-- The text of a number that is neither zero nor negative. -/
def Digits.text (number : Digits) : String :=
  let number := number.trimmed 20
  let digits := Nat.toDigits 10 number.digits
  let point := Int.ofNat digits.length + number.exponent
  if -4 ≤ point ∧ point ≤ 0 then
    "0." ++ String.ofList (List.replicate (-point).toNat '0' ++ digits)
  else if 0 < point ∧ point ≤ 16 then
    if 0 ≤ number.exponent then
      String.ofList (digits ++ List.replicate number.exponent.toNat '0') ++ ".0"
    else
      String.ofList (digits.take point.toNat ++ '.' :: digits.drop point.toNat)
  else
    let mark :=
      match digits with
      | [] | [_] => digits
      | first :: rest => first :: '.' :: rest
    let exponent := point - 1
    String.ofList mark ++ "e" ++ (if exponent < 0 then "-" else "+") ++ toString exponent.natAbs

def floatText (number : Float) : String :=
  let bits := number.toBits.toNat
  let sign := if bits / Nat.pow 2 63 = 1 then "-" else ""
  let biased := bits / Nat.pow 2 52 % Nat.pow 2 11
  let fraction := bits % Nat.pow 2 52
  if biased = 0 ∧ fraction = 0 then sign ++ "0.0"
  else if biased = 0 then sign ++ (Binary.shortest ⟨fraction, -1074, false⟩).text
  else
    sign ++ (Binary.shortest
      ⟨Nat.pow 2 52 + fraction, Int.ofNat biased - 1075, fraction = 0 ∧ 1 < biased⟩).text

end Signet.Decimal
