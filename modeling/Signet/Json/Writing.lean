/-!
# Writing values

Values are written without blanks. Texts stand between quotation marks; marks, backslashes and
control characters in them are escaped, all else stands for itself.
-/

namespace Signet.Json

/-- The escape of a character below the space, or the character. -/
def writeCharacter (c : Char) : List Char :=
  if c = '"' then ['\\', '"']
  else if c = '\\' then ['\\', '\\']
  else if c.toNat = 8 then ['\\', 'b']
  else if c.toNat = 12 then ['\\', 'f']
  else if c = '\n' then ['\\', 'n']
  else if c = '\r' then ['\\', 'r']
  else if c = '\t' then ['\\', 't']
  else if c.toNat < 32 then
    ['\\', 'u', '0', '0', Nat.digitChar (c.toNat / 16), Nat.digitChar (c.toNat % 16)]
  else [c]

def writeText (text : String) : String :=
  String.ofList ('"' :: text.toList.flatMap writeCharacter ++ ['"'])

def writeList (values : List String) : String :=
  "[" ++ ",".intercalate values ++ "]"

def writeObject (members : List (String × String)) : String :=
  "\x7b" ++ ",".intercalate (members.map fun (name, value) => writeText name ++ ":" ++ value) ++
    "\x7d"

end Signet.Json
