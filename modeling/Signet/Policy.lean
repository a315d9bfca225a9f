import Signet.Endpoint
import Signet.IdentifierSet

/-!
# Policies

A policy says which keys each endpoint may use. It is put together from entries, and an endpoint
that no entry mentions may use none.
-/

namespace Signet

/-- Which keys each endpoint may use. -/
structure Policy where
  identifiers : Endpoint → IdentifierSet

namespace Policy

def empty : Policy :=
  ⟨fun _ => .empty⟩

def replace (policy : Policy) (endpoint : Endpoint) (identifiers : IdentifierSet) : Policy :=
  ⟨fun other => if other = endpoint then identifiers else policy.identifiers other⟩

def allow (policy : Policy) (endpoint : Endpoint) (identifiers : List String) : Policy :=
  policy.replace endpoint ((policy.identifiers endpoint).insertMany identifiers)

/-- The policy of a list of entries. Entries of one endpoint add up. -/
def ofEntries (entries : List (Endpoint × List String)) : Policy :=
  entries.foldl (fun policy entry => policy.allow entry.1 entry.2) empty

/-- The policy of a table. Of several rows of one endpoint the last one counts. -/
def ofTable (rows : List (Endpoint × IdentifierSet)) : Policy :=
  rows.foldl (fun policy row => policy.replace row.1 row.2) empty

/-- The keys that an endpoint may use, in ascending order. -/
def listKeys (policy : Policy) (endpoint : Endpoint) : List String :=
  (policy.identifiers endpoint).toList

def isAuthorized (policy : Policy) (endpoint : Endpoint) (identifier : String) : Bool :=
  (policy.identifiers endpoint).contains identifier

theorem isAuthorized_iff_mem_listKeys {policy : Policy} {endpoint : Endpoint}
    {identifier : String} :
    policy.isAuthorized endpoint identifier ↔ identifier ∈ policy.listKeys endpoint :=
  IdentifierSet.contains_iff_mem

end Policy

end Signet
