/-!
# Control sequences

A terminal does not show every character that it is sent. It obeys controls, and sequences that an
escape starts. What is printed elsewhere leaves both out and keeps the blanks.

A sequence ends with a character that belongs to it. A blank inside it is shown and suspends it: the
characters behind the blank are shown too, until a control comes, with which the sequence goes on.
-/

namespace Signet.Text

/-! ## Sequences -/

/-- A sequence that has begun, by what may stand in it. -/
inductive Sequence
  /-- The escape alone came before. -/
  | escape
  /-- Signs may come, then a character that ends the sequence. -/
  | intermediate
  /-- Numbers and signs may come, then a character that ends the sequence. -/
  | parameters
  /-- A text for the terminal itself, up to a bell. -/
  | command
  /-- The head of a text for a device: nothing, numbers, or signs have come. -/
  | deviceStart
  | deviceNumbers
  | deviceSigns
  /-- A text that only an octet of a certain value ends. -/
  | string
  deriving DecidableEq, Repr

inductive ControlState
  | shown
  | inside (sequence : Sequence)
  | suspended (sequence : Sequence)
  deriving DecidableEq, Repr

/-- Whether a character is between two others, which may be the same. -/
def isBetween (first last c : Char) : Bool :=
  first ≤ c && c ≤ last

def stringEnd : UInt8 :=
  0x9c

namespace Sequence

/-- Whether a blank suspends a sequence. Others swallow it. -/
def yieldsToBlank : Sequence → Bool
  | escape | intermediate | parameters => true
  | command | deviceStart | deviceNumbers | deviceSigns | string => false

/-- The sequence that a character behind an escape starts, if there is more to it than this
character. -/
def ofSecond? (c : Char) : Option Sequence :=
  if c = '[' then some parameters
  else if c = ']' then some command
  else if c = 'P' then some deviceStart
  else if c = 'X' ∨ c = '^' ∨ c = '_' then some string
  else if isBetween ' ' '/' c then some intermediate
  else none

/-- Where a character of a sequence leads, which is not shown itself. -/
def next (sequence : Sequence) (c : Char) : ControlState :=
  match sequence with
  | escape =>
    match ofSecond? c with
    | some sequence => .inside sequence
    | none => if isBetween '0' '~' c then .shown else .inside escape
  | intermediate => if isBetween '0' '~' c then .shown else .inside intermediate
  | parameters => if isBetween '@' '~' c then .shown else .inside parameters
  | command => if c = '\x07' then .shown else .inside command
  | deviceStart =>
    if isBetween ' ' '/' c then .inside deviceSigns
    else if isBetween '0' '?' c then .inside deviceNumbers
    else if isBetween '@' '~' c then .inside string
    else .inside deviceStart
  | deviceNumbers =>
    if isBetween ' ' '/' c then .inside deviceSigns
    else if isBetween '<' '~' c then .inside string
    else .inside deviceNumbers
  | deviceSigns => if isBetween '0' '~' c then .inside string else .inside deviceSigns
  | string => if (String.utf8EncodeChar c).contains stringEnd then .shown else .inside string

end Sequence

/-! ## Texts -/

def isBlankControl (c : Char) : Bool :=
  c == '\t' || c == '\n' || c == '\x0c' || c == '\r'

def isVisible (c : Char) : Bool :=
  (' ' ≤ c && c != '\x7f') || isBlankControl c

/-- Where a character leads, and whether it is shown. An escape starts anew wherever it stands, and
two other controls end every sequence. -/
def ControlState.next (state : ControlState) (c : Char) : ControlState × Bool :=
  if c = '\x1b' then (inside .escape, false)
  else if c = '\x18' ∨ c = '\x1a' then (shown, false)
  else
    match state with
    | shown => (shown, isVisible c)
    | inside sequence =>
      if isBlankControl c && sequence.yieldsToBlank then (suspended sequence, true)
      else (sequence.next c, false)
    | suspended sequence =>
      if '\x7f' < c then (shown, true)
      else if isVisible c then (suspended sequence, true)
      else (inside sequence, false)

/-- The characters of a text that are shown where there is no terminal. -/
def withoutControls (text : String) : String :=
  let (_, reversed) := text.toList.foldl (fun (state, reversed) c =>
    let (state, isShown) := ControlState.next state c
    (state, if isShown then c :: reversed else reversed)) (ControlState.shown, [])
  String.ofList reversed.reverse

/-- The sequence that ends all marking, and with it every sequence that has begun. -/
def unmarked : String :=
  "\x1b[0m"

end Signet.Text
