/-!
# Media types

A media type is a type, a slash, a subtype and perhaps parameters. The subtype may end in a plus
sign and a suffix. A type is JSON if it is an application type whose subtype or suffix is `json`, in
whatever case. Parameters do not matter, but must be well formed.
-/

namespace Signet.Http.MediaType

def isTokenChar (c : Char) : Bool :=
  c.isAlphanum || "!#$%&'*+-.^_`|~".toList.contains c

/-- Whether a character may stand between quotation marks. -/
def isQuotable (c : Char) : Bool :=
  ' ' ≤ c && c ≤ '~'

/-! ## Parameters -/

/-- Where the reading of parameters stands: before a name, in a name, before a value, in a value,
just behind an opening quotation mark, between quotation marks, or behind a closing quotation
mark. -/
inductive State
  | beforeName
  | name
  | beforeValue
  | value
  | openingQuote
  | quoted
  | closedQuote

/-- Where reading stands behind one more character, if the character may stand there. The first
character between quotation marks cannot close them, and nothing there takes from a later mark its
meaning. -/
def State.next? (state : State) (c : Char) : Option State :=
  match state with
  | beforeName => if c = ' ' then some beforeName else if isTokenChar c then some name else none
  | name => if isTokenChar c then some name else if c = '=' then some beforeValue else none
  | beforeValue => if c = '"' then some openingQuote else if isTokenChar c then some value else none
  | value => if isTokenChar c then some value else if c = ';' then some beforeName else none
  | openingQuote => if isQuotable c then some quoted else none
  | quoted => if c = '"' then some closedQuote else if isQuotable c then some quoted else none
  | closedQuote => if c = ' ' then some closedQuote else if c = ';' then some beforeName else none

/-- Whether a text may end where reading stands. -/
def State.mayEnd : State → Bool
  | beforeName | beforeValue | value | closedQuote => true
  | name | openingQuote | quoted => false

/-- Whether a text behind the first semicolon is a list of parameters. -/
def areParameters (text : List Char) : Bool :=
  match text.foldlM State.next? State.beforeName with
  | some state => state.mayEnd
  | none => false

/-! ## Types -/

/-- Splits at the last plus sign that is not the first character. -/
def splitSuffix (subtype : List Char) : List Char × Option (List Char) :=
  let suffix := (subtype.reverse.takeWhile (· != '+')).reverse
  let rest := subtype.take (subtype.length - suffix.length)
  if rest.length ≤ 1 then (subtype, none) else (rest.dropLast, some suffix)

/-- Whether a subtype is JSON or has it as its suffix. -/
def isJsonSubtype (subtype : List Char) : Bool :=
  match splitSuffix subtype with
  | (main, suffix) => main == "json".toList || suffix == some "json".toList

def isJson (text : String) : Bool :=
  let text := text.toList
  let essence := (text.takeWhile (· != ';')).map Char.toLower
  let parameters := (text.dropWhile (· != ';')).drop 1
  let main := essence.takeWhile (· != '/')
  let subtype := (essence.dropWhile (· != '/')).drop 1
  main == "application".toList && subtype.all isTokenChar && isJsonSubtype subtype &&
    areParameters parameters

end Signet.Http.MediaType
