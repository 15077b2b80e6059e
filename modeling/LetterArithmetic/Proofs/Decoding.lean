import LetterArithmetic.Proofs.Walk
import LetterArithmetic.Tree.Encoding

/-!
Objects read by recursion. Main statement: the list of tasks with which a value is read comes to what plain recursion
comes to, the left part before the right part and both before the operator.
-/

set_option autoImplicit false

namespace LetterArithmetic.Json

theorem depth_field_lt (fields : List (String × Json)) (name : String) :
    (field fields name).depth < (object fields).depth :=
  Nat.lt_succ_of_le (depth_field fields name)

def recurse : Json → Except DecodingFault Tree
  | object fields =>
    match field fields "node_type" with
    | string "Number" => (decodeNumber (field fields "value")).map .number
    | string "BinaryOp" =>
      recurse (field fields "left") >>= fun l => recurse (field fields "right") >>= fun r =>
        (decodeOperator (field fields "operator")).map fun op => .binary (.known op) l r
    | value => .error (.unknownType value)
  | value => .error (.notAnObject value)
termination_by j => j.depth
decreasing_by
  · exact depth_field_lt fields "left"
  · exact depth_field_lt fields "right"

section

variable {fields : List (String × Json)}

theorem recurse_number (h : field fields "node_type" = string "Number") :
    recurse (object fields) = (decodeNumber (field fields "value")).map .number := by
  simp only [recurse, h]

theorem recurse_binary (h : field fields "node_type" = string "BinaryOp") :
    recurse (object fields) =
      recurse (field fields "left") >>= fun l => recurse (field fields "right") >>= fun r =>
        (decodeOperator (field fields "operator")).map fun op => .binary (.known op) l r := by
  simp only [recurse, h]

theorem recurse_unknown (hn : field fields "node_type" ≠ string "Number")
    (hb : field fields "node_type" ≠ string "BinaryOp") :
    recurse (object fields) = .error (.unknownType (field fields "node_type")) := by
  rw [recurse]
  split
  · exact absurd ‹_› hn
  · exact absurd ‹_› hb
  · rfl

end

theorem decodeTasks_visit (j : Json) (tasks : List Task) (done : List Tree) :
    decodeTasks (.visit j :: tasks) done = j.recurse >>= fun t => decodeTasks tasks (t :: done) := by
  -- for all tasks behind and all results at hand, since the right part is read on top of the left one
  induction j using recurse.induct generalizing tasks done with
  | case1 fields h =>
    rw [recurse_number h]
    simp only [decodeTasks, h]
    cases decodeNumber (field fields "value") with
    | error e => rfl
    | ok n => rfl
  | case2 fields h ihl ihr =>
    rw [recurse_binary h, bind_assoc]
    simp only [decodeTasks, h]
    rw [ihl]
    refine bind_congr fun l => ?_
    rw [ihr, bind_assoc]
    refine bind_congr fun r => ?_
    rw [decodeTasks]
    cases decodeOperator (field fields "operator") with
    | error e => rfl
    | ok op => rfl
  | case3 fields hn hb =>
    rw [recurse_unknown hn hb, decodeTasks]
    split
    · exact absurd ‹_› hn
    · exact absurd ‹_› hb
    · rfl
  | case4 value h =>
    cases value with
    | object fields => exact absurd rfl (h fields)
    | _ => simp only [decodeTasks, recurse]; rfl

theorem decode_eq_recurse (j : Json) : j.decode = j.recurse := by
  rw [decode, decodeTasks_visit]
  cases j.recurse with
  | error e => rfl
  | ok t => rw [show (Except.ok t >>= fun t => decodeTasks [] [t]) = decodeTasks [] [t] from rfl, decodeTasks]

end LetterArithmetic.Json
