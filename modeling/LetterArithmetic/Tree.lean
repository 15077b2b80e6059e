import LetterArithmetic.Operator

/-!
Expression trees. A tree read from tokens has numbers and the four operators only. A tree assembled by hand may
also name an operator that does not exist, or hold a bare node, which has a kind but no content.
-/

set_option autoImplicit false

namespace LetterArithmetic

/-- What stands at a binary node: an operator, or a name that is none. -/
inductive Sign where
  | known (op : Operator)
  | unknown (name : String)
  deriving DecidableEq, Repr

def Sign.text : Sign → String
  | known op => String.singleton op.symbol
  | unknown name => name

inductive NodeKind where
  | number | binary
  deriving DecidableEq, Repr

namespace NodeKind

def name : NodeKind → String
  | number => "NUMBER"
  | binary => "BINARY_OP"

def ordinal : NodeKind → Nat
  | number => 1
  | binary => 2

def description (k : NodeKind) : String := "ASTNode(type=<NodeType." ++ k.name ++ ": " ++ k.ordinal.repr ++ ">)"

end NodeKind

inductive Tree where
  | number (value : Int)
  | binary (sign : Sign) (left right : Tree)
  | bare (kind : NodeKind)
  deriving DecidableEq, Repr

namespace Tree

def size : Tree → Nat
  | number _ | bare _ => 1
  | binary _ l r => l.size + r.size + 1

def height : Tree → Nat
  | number _ | bare _ => 0
  | binary _ l r => max l.height r.height + 1

def isBinary : Tree → Bool
  | binary .. => true
  | _ => false

end Tree

end LetterArithmetic
