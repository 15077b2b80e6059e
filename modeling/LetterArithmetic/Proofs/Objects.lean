import LetterArithmetic.Proofs.Decoding
import LetterArithmetic.Report

/-!
Objects that describe trees. Main statement: a value is read as the tree that it describes, part by part, and a value
that describes no tree is refused for its first fault, in the order left part, right part, operator. The text of the
refusal shows a value of any size only as far as that can be written, and the stack can run out over it.
-/

set_option autoImplicit false

namespace LetterArithmetic

namespace Json

mutual

def isWritable : Json → Bool
  | int n => Text.isWritable n
  | array items => itemsWritable items
  | object fields => fieldsWritable fields
  | _ => true

def itemsWritable : List Json → Bool
  | [] => true
  | j :: r => j.isWritable && itemsWritable r

def fieldsWritable : List (String × Json) → Bool
  | [] => true
  | (_, j) :: r => j.isWritable && fieldsWritable r

end

mutual

def nesting : Json → Nat
  | array items => itemsNesting items + 1
  | object fields => fieldsNesting fields + 1
  | _ => 1

def itemsNesting : List Json → Nat
  | [] => 0
  | j :: r => max j.nesting (itemsNesting r)

def fieldsNesting : List (String × Json) → Nat
  | [] => 0
  | (_, j) :: r => max j.nesting (fieldsNesting r)

end

mutual

def shown : Json → String
  | null => "None"
  | bool true => "True"
  | bool false => "False"
  | int n => n.repr
  | decimal d => d.text
  | string s => Text.quoted s
  | array items => "[" ++ ", ".intercalate (shownItems items) ++ "]"
  | object fields => "\x7b" ++ ", ".intercalate (shownFields fields) ++ "\x7d"

def shownItems : List Json → List String
  | [] => []
  | j :: r => j.shown :: shownItems r

def shownFields : List (String × Json) → List String
  | [] => []
  | (name, j) :: r => (Text.quoted name ++ ": " ++ j.shown) :: shownFields r

end

theorem nesting_pos (j : Json) : 0 < j.nesting := by
  cases j <;> simp [nesting]

/-- What describing can come to: the result that it has without limits, or the limit that was met. -/
inductive Showing {α : Type} (levels nesting : Nat) (writable : Bool) (result : α) :
    Except DescriptionFault α → Prop where
  | whole (hw : writable = true) (hn : nesting ≤ levels) : Showing levels nesting writable result (.ok result)
  | tooDeep (hn : levels < nesting) : Showing levels nesting writable result (.error .tooDeep)
  | long (hw : writable = false) : Showing levels nesting writable result (.error (.long {}))

namespace Showing

variable {α β γ : Type} {levels n m : Nat} {w v : Bool} {a : α} {b : β} {x : Except DescriptionFault α}
  {y : Except DescriptionFault β}

theorem enclosed (f : α → β) (h : Showing levels n w a x) : Showing (levels + 1) (n + 1) w (f a) (x.map f) := by
  cases h with
  | whole hw hn => exact .whole hw (Nat.succ_le_succ hn)
  | tooDeep hn => exact .tooDeep (Nat.succ_lt_succ hn)
  | long hw => exact .long hw

theorem pair (f : α → β → γ) (h : Showing levels n w a x) (hr : Showing levels m v b y) :
    Showing levels (max n m) (w && v) (f a b) (x >>= fun a => y.map (f a)) := by
  cases h with
  | whole hw hn =>
    cases hr with
    | whole hv hm => exact .whole (by rw [hw, hv]; rfl) (Nat.max_le.mpr ⟨hn, hm⟩)
    | tooDeep hm => exact .tooDeep (Nat.lt_of_lt_of_le hm (Nat.le_max_right ..))
    | long hv => exact .long (by rw [hv, Bool.and_false])
  | tooDeep hn => exact .tooDeep (Nat.lt_of_lt_of_le hn (Nat.le_max_left ..))
  | long hw => exact .long (by rw [hw, Bool.false_and])

end Showing

mutual

theorem describe_showing (levels : Nat) (j : Json) :
    Showing levels j.nesting j.isWritable j.shown (j.describe levels) := by
  cases levels with
  | zero =>
    have h : j.describe 0 = .error .tooDeep := by
      cases j with
      | bool b => cases b <;> rfl
      | _ => rfl
    rw [h]
    exact .tooDeep j.nesting_pos
  | succ levels =>
    cases j with
    | null | decimal | string => exact .whole rfl (Nat.succ_pos _)
    | bool b => cases b <;> exact .whole rfl (Nat.succ_pos _)
    | int n =>
      rw [describe, if_neg (Nat.succ_ne_zero _)]
      by_cases hn : Text.isWritable n = true
      · rw [Text.writeInteger, if_pos hn]
        exact .whole hn (Nat.succ_pos _)
      · rw [Text.writeInteger, if_neg hn]
        exact .long ((Bool.not_eq_true _).mp hn)
    | array items =>
      rw [describe, if_neg (Nat.succ_ne_zero _)]
      exact (describeItems_showing levels items).enclosed fun texts => "[" ++ ", ".intercalate texts ++ "]"
    | object fields =>
      rw [describe, if_neg (Nat.succ_ne_zero _)]
      exact (describeFields_showing levels fields).enclosed fun texts => "\x7b" ++ ", ".intercalate texts ++ "\x7d"

theorem describeItems_showing (levels : Nat) (items : List Json) :
    Showing levels (itemsNesting items) (itemsWritable items) (shownItems items) (describeItems levels items) := by
  cases items with
  | nil => exact .whole rfl (Nat.zero_le _)
  | cons j r => exact (describe_showing levels j).pair (· :: ·) (describeItems_showing levels r)

theorem describeFields_showing (levels : Nat) (fields : List (String × Json)) :
    Showing levels (fieldsNesting fields) (fieldsWritable fields) (shownFields fields)
      (describeFields levels fields) := by
  cases fields with
  | nil => exact .whole rfl (Nat.zero_le _)
  | cons p r =>
    exact (describe_showing levels p.2).pair (fun text => ((Text.quoted p.1 ++ ": " ++ text) :: ·))
      (describeFields_showing levels r)

end

def readNumber : Json → Except String Tree
  | int n =>
    if 0 ≤ n ∧ n ≤ 18446744073709551615 then .ok (.number n) else .error ("Invalid number literal: " ++ n.repr)
  | value => .error ("Invalid number literal: " ++ value.shown)

def readOperator : Json → Except String Operator
  | string "+" => .ok .add
  | string "-" => .ok .subtract
  | string "*" => .ok .multiply
  | string "/" => .ok .divide
  | value => .error ("Unknown operator: " ++ value.shown)

def reading : Json → Except String Tree
  | object fields =>
    match field fields "node_type" with
    | string "Number" => readNumber (field fields "value")
    | string "BinaryOp" =>
      reading (field fields "left") >>= fun l => reading (field fields "right") >>= fun r =>
        readOperator (field fields "operator") >>= fun op => .ok (.binary (.known op) l r)
    | value => .error ("Unknown node type: " ++ value.shown)
  | null => .error "Expected a JSON object, got NoneType"
  | bool _ => .error "Expected a JSON object, got bool"
  | int _ => .error "Expected a JSON object, got int"
  | decimal _ => .error "Expected a JSON object, got float"
  | string _ => .error "Expected a JSON object, got str"
  | array _ => .error "Expected a JSON object, got list"
termination_by j => j.depth
decreasing_by
  · exact depth_field_lt fields "left"
  · exact depth_field_lt fields "right"

section

variable {fields : List (String × Json)}

theorem reading_number (h : field fields "node_type" = string "Number") :
    reading (object fields) = readNumber (field fields "value") := by
  simp only [reading, h]

theorem reading_binary (h : field fields "node_type" = string "BinaryOp") :
    reading (object fields) =
      reading (field fields "left") >>= fun l => reading (field fields "right") >>= fun r =>
        readOperator (field fields "operator") >>= fun op => .ok (.binary (.known op) l r) := by
  simp only [reading, h]

end

/-- The value is an object of the tree. What stands in its other fields does not matter. -/
inductive Describes : Json → Tree → Prop where
  | number {fields : List (String × Json)} {n : Int} (hkind : field fields "node_type" = string "Number")
      (hvalue : field fields "value" = int n) (hrange : 0 ≤ n ∧ n ≤ maxValue) : Describes (object fields) (.number n)
  | binary {fields : List (String × Json)} {op : Operator} {l r : Tree}
      (hkind : field fields "node_type" = string "BinaryOp") (hl : Describes (field fields "left") l)
      (hr : Describes (field fields "right") r)
      (hop : field fields "operator" = string (String.singleton op.symbol)) :
      Describes (object fields) (.binary (.known op) l r)

end Json

namespace DecodingFault

def shown? : DecodingFault → Option Json
  | unknownType value | invalidNumber value | unknownOperator value => some value
  | notAnObject _ | unbalanced => none

def fullMessage : DecodingFault → String
  | notAnObject value => "Expected a JSON object, got " ++ value.typeName
  | unknownType value => "Unknown node type: " ++ value.shown
  | invalidNumber value => "Invalid number literal: " ++ value.shown
  | unknownOperator value => "Unknown operator: " ++ value.shown
  | unbalanced => "pop from empty list"

def raised (levels : Nat) (f : DecodingFault) : String × String :=
  ((f.kind levels).name, Json.DescriptionFault.told (f.written levels))

def Fits (levels : Nat) (f : DecodingFault) : Prop :=
  ∀ value ∈ f.shown?, value.isWritable = true ∧ value.nesting + f.calls ≤ levels

/-- What is raised in place of a fault that shows the value. -/
inductive Displaced (levels : Nat) (f : DecodingFault) (value : Json) : Prop where
  | tooDeep (h : levels < value.nesting + f.calls)
      (hraised : f.raised levels =
        ("RecursionError", "maximum recursion depth exceeded while getting the repr of an object"))
  | long (h : value.isWritable = false)
      (hraised : f.raised levels =
        ("ValueError", "Exceeds the limit (4300 digits) for integer string conversion; " ++
          "use sys.set_int_max_str_digits() to increase the limit"))

section

variable {levels : Nat} {f : DecodingFault} {value : Json} {words : String}

theorem raised_of_shown (hshown : f.shown? = some value)
    (hwritten : f.written levels = (value.describe (levels - f.calls)).map (words ++ ·)) :
    (f.Fits levels ∧ f.raised levels = ("ValueError", words ++ value.shown)) ∨ f.Displaced levels value := by
  have hkind : f.kind levels = Json.DescriptionFault.kindOr .value (f.written levels) := by
    cases f with
    | unbalanced => cases hshown
    | _ => rfl
  have hpos := value.nesting_pos
  have hshowing := value.describe_showing (levels - f.calls)
  generalize value.describe (levels - f.calls) = x at hshowing hwritten
  cases hshowing with
  | whole hw hn =>
    refine .inl ⟨fun v hv => ?_, by rw [raised, hkind, hwritten]; rfl⟩
    cases Option.some.inj (hshown.symm.trans hv)
    exact ⟨hw, by omega⟩
  | tooDeep hn => exact .inr (.tooDeep (by omega) (by rw [raised, hkind, hwritten]; rfl))
  | long hw => exact .inr (.long hw (by rw [raised, hkind, hwritten]; rfl))

theorem raised_cases (levels : Nat) (hf : f ≠ .unbalanced) :
    (f.Fits levels ∧ f.raised levels = ("ValueError", f.fullMessage)) ∨
      ∃ value ∈ f.shown?, f.Displaced levels value := by
  cases f with
  | notAnObject value => exact .inl ⟨nofun, rfl⟩
  | unbalanced => exact absurd rfl hf
  | unknownType value => exact (raised_of_shown rfl rfl).imp id fun h => ⟨value, rfl, h⟩
  | invalidNumber value => exact (raised_of_shown rfl rfl).imp id fun h => ⟨value, rfl, h⟩
  | unknownOperator value => exact (raised_of_shown rfl rfl).imp id fun h => ⟨value, rfl, h⟩

theorem Displaced.not_fits (h : f.Displaced levels value) (hshown : value ∈ f.shown?) : ¬ f.Fits levels := by
  intro hfits
  obtain ⟨hw, hn⟩ := hfits value hshown
  cases h with
  | tooDeep h => omega
  | long h => cases hw.symm.trans h

theorem append_ne {s rest : String} {c d : Char} (hc : words.toList.head? = some c) (hne : c ≠ d)
    {other : String} (hd : other.toList.head? = some d) : words ++ s ≠ other ++ rest := by
  intro h
  have hhead := congrArg (·.toList.head?) h
  simp only [String.toList_append, List.head?_append, hc, hd, Option.some_or] at hhead
  exact hne (Option.some.inj hhead)

theorem Displaced.raised_ne (h : f.Displaced levels value) (hshown : value ∈ f.shown?) :
    f.raised levels ≠ ("ValueError", f.fullMessage) := by
  cases h with
  | tooDeep _ h =>
    rw [h]
    exact fun heq => absurd (Prod.mk.inj heq).1 (by decide)
  | long _ h =>
    rw [h]
    intro heq
    -- both are wrong values, but their texts begin with different letters
    replace heq := (Prod.mk.inj heq).2
    have hd : "Exceeds the limit (4300 digits) for integer string conversion; ".toList.head? = some 'E' := by decide
    cases f with
    | notAnObject | unbalanced => cases hshown
    | unknownType v =>
      have hc : "Unknown node type: ".toList.head? = some 'U' := by decide
      exact append_ne hc (by decide) hd heq.symm
    | invalidNumber v =>
      have hc : "Invalid number literal: ".toList.head? = some 'I' := by decide
      exact append_ne hc (by decide) hd heq.symm
    | unknownOperator v =>
      have hc : "Unknown operator: ".toList.head? = some 'U' := by decide
      exact append_ne hc (by decide) hd heq.symm

theorem raised_eq_iff (hf : f ≠ .unbalanced) : f.raised levels = ("ValueError", f.fullMessage) ↔ f.Fits levels := by
  obtain ⟨hfits, hraised⟩ | ⟨value, hshown, h⟩ := raised_cases levels hf
  · exact iff_of_true hraised hfits
  · exact iff_of_false (h.raised_ne hshown) (h.not_fits hshown)

end

end DecodingFault

theorem Operator.eq_of_ofSymbol? {s : String} {op : Operator} (h : ofSymbol? s = some op) :
    s = String.singleton op.symbol := by
  unfold ofSymbol? at h
  split at h <;> cases h <;> rfl

namespace Json

theorem decodeNumber_full (j : Json) :
    ((decodeNumber j).map Tree.number).mapError DecodingFault.fullMessage = readNumber j := by
  cases j with
  | int n =>
    rw [decodeNumber, readNumber, show (maxValue : Int) = 18446744073709551615 from rfl]
    split <;> rfl
  | _ => rfl

theorem decodeOperator_full (j : Json) : (decodeOperator j).mapError DecodingFault.fullMessage = readOperator j := by
  cases j with
  | string s =>
    rw [decodeOperator]
    unfold Operator.ofSymbol?
    split
    case h_1 op hop =>
      split at hop <;> cases hop <;> rfl
    case h_2 hnone =>
      rw [readOperator]
      · rfl
      all_goals
        intro heq
        cases heq
        cases hnone
  | _ => rfl

theorem mapError_bind {ε ε' α β : Type} (g : ε → ε') (x : Except ε α) (f : α → Except ε β) :
    (x >>= f).mapError g = x.mapError g >>= fun a => (f a).mapError g := by
  cases x <;> rfl

theorem reading_notAnObject {value : Json} (h : ∀ fields, value ≠ object fields) :
    value.reading = .error ("Expected a JSON object, got " ++ value.typeName) := by
  cases value with
  | object fields => exact absurd rfl (h fields)
  | _ =>
    rw [reading]
    exact congrArg Except.error (by simp only [typeName, String.reduceAppend])

theorem recurse_full (j : Json) : j.recurse.mapError DecodingFault.fullMessage = j.reading := by
  induction j using recurse.induct with
  | case1 fields h =>
    rw [recurse_number h, decodeNumber_full, reading_number h]
  | case2 fields h ihl ihr =>
    rw [recurse_binary h, reading_binary h, mapError_bind, ihl]
    refine bind_congr fun l => ?_
    rw [mapError_bind, ihr]
    refine bind_congr fun r => ?_
    rw [← decodeOperator_full]
    cases decodeOperator (field fields "operator") <;> rfl
  | case3 fields hn hb =>
    rw [recurse_unknown hn hb, reading]
    split
    · exact absurd ‹_› hn
    · exact absurd ‹_› hb
    · rfl
  | case4 value h =>
    rw [reading_notAnObject h]
    cases value with
    | object fields => exact absurd rfl (h fields)
    | _ =>
      rw [recurse]
      · rfl
      · exact h

theorem decodeNumber_cases (j : Json) :
    (∃ n, j = int n ∧ (0 ≤ n ∧ n ≤ maxValue) ∧ decodeNumber j = .ok n) ∨
      decodeNumber j = .error (.invalidNumber j) := by
  cases j with
  | int n =>
    rw [decodeNumber]
    split
    case isTrue hn => exact .inl ⟨n, rfl, hn, rfl⟩
    case isFalse => exact .inr rfl
  | _ => exact .inr rfl

theorem decodeOperator_cases (j : Json) :
    (∃ op, j = string (String.singleton op.symbol) ∧ decodeOperator j = .ok op) ∨
      decodeOperator j = .error (.unknownOperator j) := by
  cases j with
  | string s =>
    rw [decodeOperator]
    split
    case h_1 op hop => exact .inl ⟨op, congrArg string (Operator.eq_of_ofSymbol? hop), rfl⟩
    case h_2 => exact .inr rfl
  | _ => exact .inr rfl

theorem Describes.recurse_eq {j : Json} {t : Tree} (h : j.Describes t) : j.recurse = .ok t := by
  induction h with
  | @number fields n hkind hvalue hrange =>
    rw [recurse_number hkind, hvalue, decodeNumber, if_pos hrange]
    rfl
  | @binary fields op l r hkind hl hr hop ihl ihr =>
    rw [recurse_binary hkind, ihl, ihr, hop, decodeOperator, Operator.ofSymbol?_symbol]
    rfl

/-- The faults that a value has. One of a part is one of the whole. -/
inductive Has : Json → DecodingFault → Prop where
  | notAnObject {value : Json} (h : ∀ fields, value ≠ object fields) : Has value (.notAnObject value)
  | unknownType (fields : List (String × Json)) : Has (object fields) (.unknownType (field fields "node_type"))
  | invalidNumber (fields : List (String × Json)) : Has (object fields) (.invalidNumber (field fields "value"))
  | unknownOperator (fields : List (String × Json)) : Has (object fields) (.unknownOperator (field fields "operator"))
  | part {fields : List (String × Json)} {f : DecodingFault} (name : String) (h : Has (field fields name) f) :
      Has (object fields) f

theorem recurse_cases (j : Json) :
    (∃ t, j.Describes t ∧ j.recurse = .ok t) ∨ ∃ f, j.Has f ∧ j.recurse = .error f := by
  induction j using recurse.induct with
  | case1 fields hkind =>
    rw [recurse_number hkind]
    obtain ⟨n, hvalue, hrange, hn⟩ | hn := decodeNumber_cases (field fields "value")
    · exact .inl ⟨_, .number hkind hvalue hrange, by rw [hn]; rfl⟩
    · exact .inr ⟨_, .invalidNumber fields, by rw [hn]; rfl⟩
  | case2 fields hkind ihl ihr =>
    rw [recurse_binary hkind]
    obtain ⟨l, hl, hleft⟩ | ⟨f, hf, hleft⟩ := ihl
    case inr => exact .inr ⟨f, .part _ hf, by rw [hleft]; rfl⟩
    obtain ⟨r, hr, hright⟩ | ⟨f, hf, hright⟩ := ihr
    case inr => exact .inr ⟨f, .part _ hf, by rw [hleft, hright]; rfl⟩
    obtain ⟨op, hop, hread⟩ | hread := decodeOperator_cases (field fields "operator")
    · exact .inl ⟨_, .binary hkind hl hr hop, by rw [hleft, hright, hread]; rfl⟩
    · exact .inr ⟨_, .unknownOperator fields, by rw [hleft, hright, hread]; rfl⟩
  | case3 fields hn hb => exact .inr ⟨_, .unknownType fields, recurse_unknown hn hb⟩
  | case4 value hvalue =>
    refine .inr ⟨_, .notAnObject hvalue, ?_⟩
    cases value with
    | object fields => exact absurd rfl (hvalue fields)
    | _ => simp only [recurse]

theorem decode_eq_ok_iff {j : Json} {t : Tree} : j.decode = .ok t ↔ j.Describes t := by
  rw [decode_eq_recurse]
  refine ⟨fun h => ?_, Describes.recurse_eq⟩
  obtain ⟨u, hu, hok⟩ | ⟨f, -, herror⟩ := j.recurse_cases
  · exact Except.ok.inj (hok.symm.trans h) ▸ hu
  · cases herror.symm.trans h

theorem has_of_decode {j : Json} {f : DecodingFault} (h : j.decode = .error f) : j.Has f := by
  rw [decode_eq_recurse] at h
  obtain ⟨t, -, hok⟩ | ⟨g, hg, herror⟩ := j.recurse_cases
  · cases hok.symm.trans h
  · exact Except.error.inj (herror.symm.trans h) ▸ hg

theorem Has.ne_unbalanced {j : Json} {f : DecodingFault} (h : j.Has f) : f ≠ .unbalanced := by
  induction h with
  | part name h ih => exact ih
  | _ => nofun

theorem field_bounds (fields : List (String × Json)) (name : String) :
    ((object fields).isWritable = true → (field fields name).isWritable = true) ∧
      (field fields name).nesting ≤ (object fields).nesting := by
  rw [isWritable, nesting]
  induction fields with
  | nil => exact ⟨fun _ => rfl, Nat.le_refl _⟩
  | cons p r ih =>
    obtain ⟨k, j⟩ := p
    rw [fieldsWritable, fieldsNesting, Bool.and_eq_true]
    simp only [field, List.lookup_cons] at ih ⊢
    split
    · refine ⟨And.left, ?_⟩
      rw [Option.getD_some]
      omega
    · exact ⟨fun h => ih.1 h.2, by omega⟩

theorem Has.shown_bounds {j value : Json} {f : DecodingFault} (h : j.Has f) (hshown : value ∈ f.shown?) :
    (j.isWritable = true → value.isWritable = true) ∧ value.nesting ≤ j.nesting := by
  induction h with
  | notAnObject => cases hshown
  | unknownType fields => exact Option.some.inj hshown ▸ field_bounds fields _
  | invalidNumber fields => exact Option.some.inj hshown ▸ field_bounds fields _
  | unknownOperator fields => exact Option.some.inj hshown ▸ field_bounds fields _
  | @part fields f name h ih =>
    have hfield := field_bounds fields name
    exact ⟨fun hw => (ih hshown).1 (hfield.1 hw), Nat.le_trans (ih hshown).2 hfield.2⟩

def AgreesWithReading (levels : Nat) (j : Json) : Prop :=
  j.decode.mapError (·.raised levels) = j.reading.mapError fun text => ("ValueError", text)

theorem decode_full (j : Json) : j.decode.mapError DecodingFault.fullMessage = j.reading := by
  rw [decode_eq_recurse, recurse_full]

theorem agreesWithReading_iff {levels : Nat} {j : Json} :
    j.AgreesWithReading levels ↔ ∀ f, j.decode = .error f → f.Fits levels := by
  rw [AgreesWithReading, ← decode_full]
  cases h : j.decode with
  | ok t => exact iff_of_true rfl nofun
  | error f =>
    have hiff : f.raised levels = ("ValueError", f.fullMessage) ↔ f.Fits levels :=
      DecodingFault.raised_eq_iff (has_of_decode h).ne_unbalanced
    refine ⟨fun heq g hg => ?_, fun hfits => congrArg Except.error (hiff.mpr (hfits f rfl))⟩
    cases hg
    exact hiff.mp (Except.error.inj heq)

theorem fits_of_nesting {levels : Nat} {j : Json} {f : DecodingFault} (hw : j.isWritable = true)
    (hn : j.nesting + 4 ≤ levels) (h : j.decode = .error f) : f.Fits levels := by
  intro value hshown
  obtain ⟨hwritable, hnesting⟩ := (has_of_decode h).shown_bounds hshown
  have hcalls : f.calls ≤ 4 := by cases f <;> simp [DecodingFault.calls]
  exact ⟨hwritable hw, by omega⟩

/-- Reading agrees with plain recursion exactly if what the first fault shows can be written and there are levels
enough for it, so surely if that holds of the whole value. Otherwise what hinders the text is raised in place of the
fault. A value is read as a tree if and only if it describes the tree at all levels. The list of results never lacks
a tree, and one is left at the end. -/
theorem decode_agrees_with_reading (levels : Nat) (j : Json) :
    (j.AgreesWithReading levels ↔ ∀ f, j.decode = .error f → f.Fits levels) ∧
    (j.isWritable = true → j.nesting + 4 ≤ levels → j.AgreesWithReading levels) ∧
    (∀ f, j.decode = .error f → j.reading = .error f.fullMessage ∧
      (f.raised levels = ("ValueError", f.fullMessage) ∨ ∃ value ∈ f.shown?, f.Displaced levels value)) ∧
    (∀ t, j.decode = .ok t ↔ j.reading = .ok t) ∧ (∀ t, j.decode = .ok t ↔ j.Describes t) ∧
    j.decode ≠ .error .unbalanced := by
  refine ⟨agreesWithReading_iff, fun hw hn => agreesWithReading_iff.mpr fun f h => fits_of_nesting hw hn h,
    fun f h => ⟨?_, ?_⟩, fun t => ?_, fun t => decode_eq_ok_iff, fun h => (has_of_decode h).ne_unbalanced rfl⟩
  · rw [← decode_full, h]
    rfl
  · exact (DecodingFault.raised_cases levels (has_of_decode h).ne_unbalanced).imp And.right id
  · rw [← decode_full]
    cases j.decode with
    | ok _ => exact ⟨fun h => congrArg Except.ok (Except.ok.inj h), fun h => congrArg Except.ok (Except.ok.inj h)⟩
    | error f =>
      constructor <;>
        · intro h
          cases h

example :
    reading (object [("operator", string "%"), ("right", array []), ("node_type", string "BinaryOp"),
      ("left", object [("value", bool true), ("node_type", string "Number")])]) =
        .error "Invalid number literal: True" := by
  rw [reading_binary rfl, show field _ "left" = object [("value", bool true), ("node_type", string "Number")] from rfl,
    reading_number rfl]
  rfl

def wrapped : Nat → Json
  | 0 => int 1
  | n + 1 => array [wrapped n]

theorem nesting_wrapped (n : Nat) : (wrapped n).nesting = n + 1 := by
  induction n with
  | zero => rfl
  | succ n ih => rw [wrapped, nesting, itemsNesting, itemsNesting, ih, Nat.max_zero]

theorem decodeOperator_wrapped (n : Nat) : decodeOperator (wrapped n) = .error (.unknownOperator (wrapped n)) := by
  cases n <;> rfl

theorem not_agreesWithReading_wrapped :
    ¬ (object [("node_type", string "BinaryOp"), ("left", numberObject 1), ("right", numberObject 1),
      ("operator", wrapped 991)]).AgreesWithReading usualLevels := by
  have hone : (numberObject 1).recurse = .ok (.number 1) := Describes.recurse_eq (.number rfl rfl (by decide))
  rw [agreesWithReading_iff]
  intro h
  -- both parts are numbers, so the reading comes to the operator
  have hdecode := h (.unknownOperator (wrapped 991)) (by
    rw [decode_eq_recurse, recurse_binary rfl, show field _ "left" = numberObject 1 from rfl,
      show field _ "right" = numberObject 1 from rfl, show field _ "operator" = wrapped 991 from rfl, hone,
      decodeOperator_wrapped]
    rfl)
  have hlevels := (hdecode _ rfl).2
  rw [nesting_wrapped] at hlevels
  exact absurd hlevels (by decide)

end Json

end LetterArithmetic
