import LetterArithmetic.Json
import LetterArithmetic.Token
import LetterArithmetic.Tree.Walk

/-!
Trees as interchange objects, and objects read back as trees. Reading keeps its own list of tasks, like a walk
over a tree, and reports the first fault in the order left part, right part, operator.
-/

set_option autoImplicit false

namespace LetterArithmetic

inductive EncodingFault where
  | notATree (value : Json)
  | bareRoot (kind : NodeKind)
  | noSymbol (name : String)
  | walk (f : WalkFault)

def EncodingFault.message : EncodingFault → String
  | notATree value => Json.DescriptionFault.told ((value.describe Json.usualLevels).map ("Unknown node type: " ++ ·))
  | bareRoot kind => "Unknown node type: " ++ kind.description
  | noSymbol _ => "'str' object has no attribute 'symbol'"
  | walk f => f.message

def numberObject (value : Int) : Json := .object [("node_type", .string "Number"), ("value", .int value)]

def binaryObject (symbol : String) (left right : Json) : Json :=
  .object [("node_type", .string "BinaryOp"), ("operator", .string symbol), ("left", left), ("right", right)]

/-- The object of a tree. A bare root is refused before the walk, a bare node elsewhere when the walk meets it, and a
name that is no operator where it is asked for its symbol. -/
def Tree.encode (t : Tree) : Except EncodingFault Json :=
  match t with
  | .bare kind => .error (.bareRoot kind)
  | t => t.fold .walk numberObject fun s _ _ l r =>
    match s with
    | .known op => .ok (binaryObject (String.singleton op.symbol) l r)
    | .unknown name => .error (.noSymbol name)

/-- Encode what may be a tree. Of other values only the fault is known. -/
def encode : Tree ⊕ Json → Except EncodingFault Json
  | .inl t => t.encode
  | .inr value => .error (.notATree value)

inductive DecodingFault where
  | notAnObject (value : Json)
  | unknownType (value : Json)
  | invalidNumber (value : Json)
  | unknownOperator (value : Json)
  | unbalanced

namespace DecodingFault

/-- How much further up the stack a value is described than it is read. An operator is described where the operators
are searched for it. -/
def calls : DecodingFault → Nat
  | invalidNumber _ => 1
  | unknownOperator _ => 4
  | notAnObject _ | unknownType _ | unbalanced => 0

def written (levels : Nat) (f : DecodingFault) : Except Json.DescriptionFault String :=
  match f with
  | notAnObject value => .ok ("Expected a JSON object, got " ++ value.typeName)
  | unknownType value => (value.describe (levels - f.calls)).map ("Unknown node type: " ++ ·)
  | invalidNumber value => (value.describe (levels - f.calls)).map ("Invalid number literal: " ++ ·)
  | unknownOperator value => (value.describe (levels - f.calls)).map ("Unknown operator: " ++ ·)
  | unbalanced => .ok "pop from empty list"

def message (f : DecodingFault) : String := Json.DescriptionFault.told (f.written Json.usualLevels)

end DecodingFault

namespace Json

def decodeNumber : Json → Except DecodingFault Int
  | int n => if 0 ≤ n ∧ n ≤ maxValue then .ok n else .error (.invalidNumber (int n))
  | value => .error (.invalidNumber value)

def decodeOperator : Json → Except DecodingFault Operator
  | string s =>
    match Operator.ofSymbol? s with
    | some op => .ok op
    | none => .error (.unknownOperator (string s))
  | value => .error (.unknownOperator value)

mutual

def depth : Json → Nat
  | array items => itemsDepth items + 1
  | object fields => fieldsDepth fields + 1
  | _ => 0

def itemsDepth : List Json → Nat
  | [] => 0
  | j :: r => max j.depth (itemsDepth r)

def fieldsDepth : List (String × Json) → Nat
  | [] => 0
  | (_, j) :: r => max j.depth (fieldsDepth r)

end

theorem depth_field (fields : List (String × Json)) (name : String) :
    (field fields name).depth ≤ fieldsDepth fields := by
  induction fields with
  | nil => simp [field, depth]
  | cons f r ih =>
    obtain ⟨k, j⟩ := f
    simp only [field, List.lookup_cons, fieldsDepth] at *
    split
    · simp only [Option.getD_some]; omega
    · omega

inductive Task where
  | visit (j : Json)
  | join (operator : Json)

def Task.weight : Task → Nat
  | visit j => Nat.pow 4 j.depth
  | join _ => 1

theorem Task.weight_pos (t : Task) : 0 < t.weight := by
  cases t with
  | visit j => exact Nat.pow_pos (by decide)
  | join _ => exact Nat.one_pos

theorem weight_parts (fields : List (String × Json)) (left right : String) :
    Nat.pow 4 (field fields left).depth + (Nat.pow 4 (field fields right).depth + 1) <
      Nat.pow 4 (object fields).depth := by
  have hl := Nat.pow_le_pow_right (by decide : 0 < 4) (depth_field fields left)
  have hr := Nat.pow_le_pow_right (by decide : 0 < 4) (depth_field fields right)
  have h0 : 0 < 4 ^ fieldsDepth fields := Nat.pow_pos (by decide)
  have hs : Nat.pow 4 (object fields).depth = 4 ^ fieldsDepth fields * 4 := by rw [depth, Nat.pow_eq, Nat.pow_succ]
  simp only [Nat.pow_eq] at hs ⊢
  omega

/-- Work off the tasks in order; trees lie latest first. -/
def decodeTasks : List Task → List Tree → Except DecodingFault Tree
  | [], [t] => .ok t
  | [], _ => .error .unbalanced
  | .visit (object fields) :: tasks, done =>
    match field fields "node_type" with
    | string "Number" =>
      match decodeNumber (field fields "value") with
      | .ok n => decodeTasks tasks (.number n :: done)
      | .error e => .error e
    | string "BinaryOp" =>
      decodeTasks (.visit (field fields "left") :: .visit (field fields "right") ::
        .join (field fields "operator") :: tasks) done
    | value => .error (.unknownType value)
  | .visit value :: _, _ => .error (.notAnObject value)
  | .join operator :: tasks, right :: left :: done =>
    match decodeOperator operator with
    | .ok op => decodeTasks tasks (.binary (.known op) left right :: done)
    | .error e => .error e
  | .join _ :: _, _ => .error .unbalanced
termination_by tasks => tasks.foldr (fun task n => task.weight + n) 0
decreasing_by
  all_goals simp only [List.foldr_cons]
  · have := (Task.visit (object fields)).weight_pos; omega
  · have := weight_parts fields "left" "right"; simp only [Task.weight]; omega
  · have := (Task.join operator).weight_pos; omega

def decode (j : Json) : Except DecodingFault Tree := decodeTasks [.visit j] []

end Json

end LetterArithmetic
