import LetterArithmetic.Text.Quoted

/-!
The four operators with the ways each is written, and rank tables. A higher rank binds tighter; a table may leave
operators out. Under the usual table all ranks are equal, so a chain groups strictly from the left.
-/

set_option autoImplicit false

namespace LetterArithmetic

inductive Operator where
  | add | subtract | multiply | divide
  deriving DecidableEq, Repr

namespace Operator

def symbol : Operator → Char
  | add => '+'
  | subtract => '-'
  | multiply => '*'
  | divide => '/'

def letter : Operator → Char
  | add => 'a'
  | subtract => 'b'
  | multiply => 'c'
  | divide => 'd'

def name : Operator → String
  | add => "ADD"
  | subtract => "SUBTRACT"
  | multiply => "MULTIPLY"
  | divide => "DIVIDE"

def label (op : Operator) : String :=
  "<Operator." ++ op.name ++ ": " ++ Text.quoted (String.singleton op.symbol) ++ ">"

def ofSymbol? : String → Option Operator
  | "+" => some add
  | "-" => some subtract
  | "*" => some multiply
  | "/" => some divide
  | _ => none

@[simp] theorem ofSymbol?_symbol (op : Operator) : ofSymbol? (String.singleton op.symbol) = some op := by
  cases op <;> rfl

theorem symbol_injective {op op' : Operator} (h : op.symbol = op'.symbol) : op = op' := by
  have hop := ofSymbol?_symbol op
  rw [h, ofSymbol?_symbol] at hop
  exact (Option.some.inj hop).symm

end Operator

structure UnknownSymbol where
  text : String
  deriving DecidableEq, Repr

def UnknownSymbol.message (f : UnknownSymbol) : String := Text.quoted f.text ++ " is not a valid Operator"

def Operator.ofSymbol (text : String) : Except UnknownSymbol Operator :=
  match ofSymbol? text with
  | some op => .ok op
  | none => .error ⟨text⟩

abbrev Ranks := Operator → Option Int

def Ranks.level : Ranks := fun _ => some 3

end LetterArithmetic
