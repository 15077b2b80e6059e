import LetterArithmetic.Token
import LetterArithmetic.Tree

/-!
Reading tokens into a tree by climbing operator ranks. An expression is a primary followed by operators of at
least a given rank, each with an expression of higher rank on its right; a primary is a number or a group. Three
things are limited: which operators have a rank, how deep groups nest, and how many expressions and primaries are
being read at once. The stack that limits the last can also run out while the message of a fault is made. A fault
leaves the cursor where it arose, with the depth of the groups that were not closed.
-/

set_option autoImplicit false

namespace LetterArithmetic

inductive ReadFault where
  | unexpectedToken (t : Token)
  | unexpectedEnd
  | expected (kind : TokenKind) (got : Token)
  | tooDeep
  | unranked (op : Operator)
  | tooManyCalls
  | cutShort (naming : Option Token)
  deriving DecidableEq, Repr

namespace ReadFault

/-- The token that the message shows, or was to show where the stack ran out while it was made. -/
def shown? : ReadFault → Option Token
  | unexpectedToken t | expected _ t => some t
  | unexpectedEnd | tooDeep | unranked _ | tooManyCalls => none
  | cutShort naming => naming

def written : ReadFault → Except LongNumber String
  | unexpectedToken t => t.text.map ("Unexpected token found " ++ ·)
  | unexpectedEnd => .ok "Unexpected end of input"
  | expected kind got => got.text.map fun s => "Expected " ++ kind.name ++ " got " ++ s
  | tooDeep => .ok "Expression nested too deeply"
  | unranked op => .ok op.label
  | tooManyCalls | cutShort _ => .ok "maximum recursion depth exceeded"

def message (f : ReadFault) : String := LongNumber.told f.written

/-- The room on the stack that making a message takes, as the number of calls that could be opened in its place: to
name a token takes a call to format it and one to format its kind, each with some of the language's own. -/
def room : ReadFault → Nat
  | unexpectedEnd | tooDeep => 1
  | unexpectedToken _ => 4
  | expected .. => 6
  | unranked _ | tooManyCalls | cutShort _ => 0

theorem room_le (f : ReadFault) : f.room ≤ 6 := by
  cases f <;> simp [room]

/-- What comes of a fault where `calls` more could be opened: without room for its message the stack runs out. -/
def within (f : ReadFault) (calls : Nat) : ReadFault := if f.room ≤ calls then f else .cutShort f.shown?

def isExhaustion : ReadFault → Bool
  | tooManyCalls | cutShort _ => true
  | _ => false

end ReadFault

/-- Of 1000 frames on the stack some are taken by the program that reads, and each open expression or primary takes
one; with 984 of these open there is still room for every message. -/
structure Limits where
  ranks : Ranks := Ranks.level
  maxDepth : Int := 200
  maxCalls : Nat := 984

/-- All calls that can be opened. In the last of them there is no room for some messages. -/
def Limits.openCalls (lim : Limits) : Nat := lim.maxCalls + 6

theorem ReadFault.within_openCalls (lim : Limits) (f : ReadFault) : f.within lim.openCalls = f :=
  if_pos (Nat.le_trans f.room_le (Nat.le_add_left 6 lim.maxCalls))

structure Cursor where
  pos : Nat
  rest : List Token
  depth : Nat
  deriving DecidableEq, Repr

namespace Cursor

def ofTokens (ts : List Token) : Cursor := ⟨0, ts, 0⟩

def current? (c : Cursor) : Option Token := c.rest.head?

def take (c : Cursor) : Option Token × Cursor :=
  match c.rest with
  | [] => (none, c)
  | t :: r => (some t, { c with pos := c.pos + 1, rest := r })

/-- Take a token of the given kind. One of another kind is taken too. -/
def takeKind (kind : TokenKind) (c : Cursor) : Except ReadFault Token × Cursor :=
  match c.take with
  | (none, c) => (.error .unexpectedEnd, c)
  | (some t, c) => (if t.kind = kind then .ok t else .error (.expected kind t), c)

/-- Extend `left` by operators of rank `min` or more, each with what `operand` reads above its rank. Every round
takes tokens, so the tokens that remain at the start, one given up for each round, are budget enough. -/
def climb (ranks : Ranks) (operand : Int → Cursor → Except ReadFault Tree × Cursor) (min : Int) :
    List Token → Tree → Cursor → Except ReadFault Tree × Cursor
  | [], left, c => (.ok left, c)
  | _ :: budget, left, c =>
    match c.rest with
    | .operator op :: r =>
      match ranks op with
      | none => (.error (.unranked op), c)
      | some rank =>
        if rank < min then (.ok left, c)
        else
          match operand (rank + 1) { c with pos := c.pos + 1, rest := r } with
          | (.error e, c) => (.error e, c)
          | (.ok right, c) => climb ranks operand min budget (.binary (.known op) left right) c
    | _ => (.ok left, c)

mutual

/-- Read a number or a group. The first number says how many more expressions and primaries may be open. -/
def primary (lim : Limits) : Nat → Cursor → Except ReadFault Tree × Cursor
  | 0, c => (.error .tooManyCalls, c)
  | calls + 1, c =>
    match c.take with
    | (none, c) => (.error (ReadFault.unexpectedEnd.within calls), c)
    | (some (.number v), c) => (.ok (.number v), c)
    | (some .leftParen, c) =>
      let inner := { c with depth := c.depth + 1 }
      if lim.maxDepth < inner.depth then (.error (ReadFault.tooDeep.within calls), inner)
      else
        match expression lim calls 0 inner with
        | (.error e, c) => (.error e, c)
        | (.ok t, c) =>
          match c.takeKind .rightParen with
          | (.error e, c) => (.error (e.within calls), c)
          | (.ok _, c) => (.ok t, { c with depth := c.depth - 1 })
    | (some t, c) => (.error ((ReadFault.unexpectedToken t).within calls), c)

def expression (lim : Limits) : Nat → Int → Cursor → Except ReadFault Tree × Cursor
  | 0, _, c => (.error .tooManyCalls, c)
  | calls + 1, min, c =>
    match primary lim calls c with
    | (.error e, c) => (.error e, c)
    | (.ok left, c) => climb lim.ranks (expression lim calls) min c.rest left c

end

/-- Read one expression up to the end token, with so many calls to open. A stack that runs out over the expression
counts as too deep. -/
def wholeIn (lim : Limits) (calls : Nat) (c : Cursor) : Except ReadFault Tree × Cursor :=
  match expression lim calls 0 c with
  | (.error e, c) => (.error (if e.isExhaustion then ReadFault.tooDeep.within calls else e), c)
  | (.ok t, c) =>
    match c.takeKind .stop with
    | (.error e, c) => (.error (e.within calls), c)
    | (.ok _, c) => (.ok t, c)

def whole (lim : Limits) (c : Cursor) : Except ReadFault Tree × Cursor := c.wholeIn lim lim.openCalls

end Cursor

def Tree.ofTokens (lim : Limits) (ts : List Token) : Except ReadFault Tree := ((Cursor.ofTokens ts).whole lim).1

end LetterArithmetic
