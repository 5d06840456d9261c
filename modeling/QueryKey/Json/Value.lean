import QueryKey.Number.Binary

/-! Document values. Objects keep their members in the order of the text, repeated keys included;
`arranged` brings them into the one order in which documents are read.
-/

namespace QueryKey

/-- A number of a document. Integers keep their value; of the two float formats only doubles
are ever read, singles are only written.
-/
inductive Json.Number where
  | integer (value : Int)
  | double (value : Number.Double)
  | single (value : Number.Single)
deriving DecidableEq

inductive Json where
  | null
  | bool (value : Bool)
  | number (value : Json.Number)
  | string (value : String)
  | array (items : List Json)
  | object (members : List (String × Json))

namespace Json

/-- Puts a member in front of others that are sorted by key, unless the key is among them. -/
def insertMember (key : String) (value : Json) : List (String × Json) → List (String × Json)
  | [] => [(key, value)]
  | (other, present) :: rest =>
      if key < other then (key, value) :: (other, present) :: rest
      else if key = other then (other, present) :: rest
      else (other, present) :: insertMember key value rest

mutual
/-- The value with the members of every object sorted by key. Of a repeated key the last
member counts.
-/
def arranged : Json → Json
  | array items => array (arrangedItems items)
  | object members => object (arrangedMembers members)
  | other => other

def arrangedItems : List Json → List Json
  | [] => []
  | item :: rest => arranged item :: arrangedItems rest

def arrangedMembers : List (String × Json) → List (String × Json)
  | [] => []
  | (key, value) :: rest => insertMember key (arranged value) (arrangedMembers rest)
end

/-- The value of the first member with the given key. -/
def find? (key : String) : List (String × Json) → Option Json
  | [] => none
  | (other, value) :: rest => if other = key then some value else find? key rest

/-- The member of an object. -/
def get? (key : String) : Json → Option Json
  | object members => find? key members
  | _ => none

end Json

end QueryKey
