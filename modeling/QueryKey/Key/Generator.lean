import QueryKey.Key.Visit

/-! Keys of trees: equal keys mean that a compiled plan of one tree serves the other. -/

namespace QueryKey

/-- The key of a tree. -/
structure CacheKey where
  text : String
deriving DecidableEq

namespace CacheKey

/-- The length in bytes. -/
def size (k : CacheKey) : Nat :=
  k.text.utf8ByteSize

def isEmpty (k : CacheKey) : Bool :=
  k.size == 0

/-- Keys are ordered by their code points, which is the order of their bytes. -/
def le (a b : CacheKey) : Bool :=
  !(b.text < a.text)

end CacheKey

namespace Key

/-- The key of a tree, or why it has none. -/
def generate (s : Settings) (tree : Expr) : Except Failure CacheKey :=
  match visit s tree {} with
  | (p, none) => .ok ⟨p.text⟩
  | (_, some failure) => .error failure

/-- The key of a tree, `none` if it is merely not cacheable. -/
def tryGenerate (s : Settings) (tree : Expr) : Except Failure (Option CacheKey) :=
  match generate s tree with
  | .ok key => .ok (some key)
  | .error failure => if failure.isUnsupported then .ok none else .error failure

end Key

end QueryKey
