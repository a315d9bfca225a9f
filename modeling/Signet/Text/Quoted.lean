import Signet.Text.GraphemeExtend
import Signet.Text.Printable

/-!
# Quoted texts

Texts that come from callers stand in messages and log records between quotation marks, with every
character escaped that could end the quotation, start a line or hide itself. The few common ones
have an escape of one letter, all others are written as their code point in braces.

What counts as plain is a parameter of `quoteBy`; `quote` takes the printable characters that do not
join the one before them.
-/

namespace Signet.Text

/-- The digits of a number in base sixteen, lower case. -/
def hexDigits (number : Nat) : List Char :=
  Nat.toDigits 16 number

def escape (isPlain : Char → Bool) (c : Char) : List Char :=
  if c = '"' then ['\\', '"']
  else if c = '\\' then ['\\', '\\']
  else if c = '\n' then ['\\', 'n']
  else if c = '\r' then ['\\', 'r']
  else if c = '\t' then ['\\', 't']
  else if c = '\x00' then ['\\', '0']
  else if isPlain c then [c]
  else ['\\', 'u', '\x7b'] ++ hexDigits c.toNat ++ ['\x7d']

def quoteBy (isPlain : Char → Bool) (text : String) : String :=
  String.ofList ('"' :: text.toList.flatMap (escape isPlain) ++ ['"'])

def isPlain (c : Char) : Bool :=
  (' ' ≤ c && c ≤ '~') || (isPrintable c && !isGraphemeExtend c)

/-- A text between quotation marks, as messages and log records show it. -/
def quote (text : String) : String :=
  quoteBy isPlain text

end Signet.Text
