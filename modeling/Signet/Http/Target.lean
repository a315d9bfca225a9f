import Signet.Octets

/-!
# Targets

The target of a request is a path with perhaps a query, the same behind a scheme and an authority,
an authority alone, or an asterisk. Segments of a path are compared as they stand; only what a
segment stands for is decoded, as UTF-8 behind percent signs.
-/

namespace Signet.Http

/-! ## Paths -/

def beforeQuery (target : List Char) : List Char :=
  target.takeWhile fun c => c != '?' && c != '#'

/-- What stands behind the mark of a scheme, if there is one. -/
def afterScheme? : List Char → Option (List Char)
  | [] => none
  | ':' :: '/' :: '/' :: rest => some rest
  | _ :: rest => afterScheme? rest

/-- The path of a target. It is empty if the target is only an authority. -/
def pathOf (target : String) : String :=
  let target := target.toList
  if target.head? == some '/' then String.ofList (beforeQuery target)
  else if target == ['*'] then "*"
  else
    match afterScheme? (beforeQuery target) with
    | none => ""
    | some rest =>
      match rest.dropWhile (· != '/') with
      | [] => "/"
      | path => String.ofList path

/-- Puts a character of a path before the segments that follow it. -/
def addToSegments (c : Char) (segments : List (List Char)) : List (List Char) :=
  if c = '/' then [] :: segments
  else
    match segments with
    | [] => [[c]]
    | segment :: rest => (c :: segment) :: rest

/-- The segments of a path that starts with a slash: what stands between its slashes. -/
def segments? (path : String) : Option (List String) :=
  match path.toList with
  | '/' :: rest => some ((rest.foldr addToSegments [[]]).map String.ofList)
  | _ => none

/-! ## Percent signs -/

/-- Two octets as the hexadecimal digits of one. -/
def hexPair? (high low : UInt8) : Option UInt8 :=
  match Octets.hexValue? high, Octets.hexValue? low with
  | some high, some low => some (UInt8.ofNat (high * 16 + low))
  | _, _ => none

/-- Replaces each percent sign and the two hexadecimal digits behind it by the octet that they stand
for. A percent sign without two digits stands for itself. -/
def percentDecode (octets : Octets) : Octets :=
  go [] octets
where
  /-- Goes on behind what has been decoded, which is kept in reverse. -/
  go (decoded : Octets) : Octets → Octets
    | [] => decoded.reverse
    | 37 :: high :: low :: rest =>
      match hexPair? high low with
      | some octet => go (octet :: decoded) rest
      | none => go (37 :: decoded) (high :: low :: rest)
    | octet :: rest => go (octet :: decoded) rest

def decodeSegment? (segment : String) : Option String :=
  (percentDecode (Octets.ofText segment)).toText?

end Signet.Http
