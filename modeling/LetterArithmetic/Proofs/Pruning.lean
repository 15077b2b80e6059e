import LetterArithmetic.Proofs.Interchange
import LetterArithmetic.Proofs.Objects

/-!
Objects with more fields than a tree needs. Main statement: the object of the tree that a value describes is the value
without the fields that say nothing of a tree, at all levels and up to the order of fields.
-/

set_option autoImplicit false

namespace LetterArithmetic

namespace Json

/-- A value up to the order of fields: an object is what stands under each name. -/
inductive View where
  | null
  | bool (b : Bool)
  | int (n : Int)
  | decimal (d : Decimal)
  | string (s : String)
  | array (items : List View)
  | object (fields : String → Option View)

mutual

def view : Json → View
  | null => .null
  | bool b => .bool b
  | int n => .int n
  | decimal d => .decimal d
  | string s => .string s
  | array items => .array (itemViews items)
  | object fields => .object (fieldViews fields)

def itemViews : List Json → List View
  | [] => []
  | j :: r => j.view :: itemViews r

def fieldViews : List (String × Json) → String → Option View
  | [], _ => none
  | (k, j) :: r, name => if name = k then some j.view else fieldViews r name

end

/-- The fields that an object of a kind has of its own. -/
def ownNames : Json → List String
  | string "Number" => ["node_type", "value"]
  | string "BinaryOp" => ["node_type", "operator", "left", "right"]
  | _ => []

mutual

def pruned : Json → Json
  | object fields => object (prunedFields (ownNames (field fields "node_type")) fields)
  | j => j

def prunedFields (names : List String) : List (String × Json) → List (String × Json)
  | [] => []
  | (name, j) :: r => if name ∈ names then (name, j.pruned) :: prunedFields names r else prunedFields names r

end

/-- Somewhere in an object, or in the objects of its parts, there is a field that says nothing of a tree. -/
inductive HasExtra : Json → Prop where
  | here {fields : List (String × Json)} {name : String} (hmem : (fields.lookup name).isSome = true)
      (hname : name ∉ ownNames (field fields "node_type")) : HasExtra (object fields)
  | left {fields : List (String × Json)} (h : HasExtra (field fields "left")) : HasExtra (object fields)
  | right {fields : List (String × Json)} (h : HasExtra (field fields "right")) : HasExtra (object fields)

theorem fieldViews_eq (fields : List (String × Json)) (name : String) :
    fieldViews fields name = (fields.lookup name).map view := by
  induction fields with
  | nil => rfl
  | cons p r ih =>
    obtain ⟨k, j⟩ := p
    rw [fieldViews, List.lookup_cons, ih]
    by_cases h : name = k
    · simp [h]
    · simp [h, beq_eq_false_iff_ne.mpr h]

theorem lookup_prunedFields (names : List String) (fields : List (String × Json)) (name : String) :
    (prunedFields names fields).lookup name = if name ∈ names then (fields.lookup name).map pruned else none := by
  induction fields with
  | nil => simp [prunedFields]
  | cons p r ih =>
    obtain ⟨k, j⟩ := p
    rw [prunedFields, List.lookup_cons]
    by_cases h : name = k
    · subst h
      by_cases hmem : name ∈ names
      · simp [hmem]
      · simp [hmem, ih]
    · have hk : (name == k) = false := beq_eq_false_iff_ne.mpr h
      by_cases hmem : k ∈ names
      · simp [hmem, List.lookup_cons, hk, ih]
      · simp [hmem, hk, ih]

theorem view_object (fields : List (String × Json)) :
    (object fields).view = .object fun name => (fields.lookup name).map view := by
  rw [view]
  exact congrArg View.object (funext (fieldViews_eq fields))

theorem view_pruned (fields : List (String × Json)) :
    (object fields).pruned.view = .object fun name =>
      if name ∈ ownNames (field fields "node_type") then ((fields.lookup name).map pruned).map view else none := by
  rw [pruned, view_object]
  refine congrArg View.object (funext fun name => ?_)
  rw [lookup_prunedFields, apply_ite (Option.map view), Option.map_none]

theorem lookup_eq_of_view {fields fields' : List (String × Json)} (h : (object fields).view = (object fields').view)
    (name : String) : (fields.lookup name).map view = (fields'.lookup name).map view := by
  rw [view_object, view_object] at h
  exact congrFun (View.object.inj h) name

theorem view_field (fields : List (String × Json)) (name : String) :
    (field fields name).view = ((fields.lookup name).map view).getD .null := by
  rw [field]
  cases fields.lookup name <;> rfl

theorem view_field_congr {fields fields' : List (String × Json)} (h : (object fields).view = (object fields').view)
    (name : String) : (field fields name).view = (field fields' name).view := by
  rw [view_field, view_field, lookup_eq_of_view h]

theorem eq_string_of_view {j : Json} {s : String} (h : j.view = (string s).view) : j = string s := by
  cases j <;> cases h
  rfl

theorem eq_int_of_view {j : Json} {n : Int} (h : j.view = (int n).view) : j = int n := by
  cases j <;> cases h
  rfl

theorem exists_object_of_view {j : Json} {fields : List (String × Json)} (h : j.view = (object fields).view) :
    ∃ fields', j = object fields' := by
  cases j with
  | object fields' => exact ⟨fields', rfl⟩
  | _ => cases h

theorem Describes.of_view {j j' : Json} {t : Tree} (h : j.Describes t) (hview : j'.view = j.view) : j'.Describes t := by
  induction h generalizing j' with
  | @number fields n hkind hvalue hrange =>
    obtain ⟨fields', rfl⟩ := exists_object_of_view hview
    have hfield := view_field_congr hview
    exact .number (eq_string_of_view (hkind ▸ hfield _)) (eq_int_of_view (hvalue ▸ hfield _)) hrange
  | @binary fields op l r hkind hl hr hop ihl ihr =>
    obtain ⟨fields', rfl⟩ := exists_object_of_view hview
    have hfield := view_field_congr hview
    exact .binary (eq_string_of_view (hkind ▸ hfield _)) (ihl (hfield _)) (ihr (hfield _))
      (eq_string_of_view (hop ▸ hfield _))

theorem lookup_of_field {fields : List (String × Json)} {name : String} {j : Json} (h : field fields name = j)
    (hj : j ≠ null) : fields.lookup name = some j := by
  subst h
  rw [field] at hj ⊢
  cases hlookup : fields.lookup name with
  | none =>
    rw [hlookup] at hj
    exact absurd rfl hj
  | some j => rfl

theorem Describes.ne_null {j : Json} {t : Tree} (h : j.Describes t) : j ≠ null := by
  cases h <;> nofun

theorem view_eq_view_pruned {own fields : List (String × Json)}
    (hnames : own.map Prod.fst = ownNames (field fields "node_type"))
    (hsome : ∀ name ∈ own.map Prod.fst, ∃ a b, own.lookup name = some a ∧ fields.lookup name = some b ∧
      a.view = b.pruned.view) : (object own).view = (object fields).pruned.view := by
  rw [view_object, view_pruned, ← hnames]
  refine congrArg View.object (funext fun name => ?_)
  by_cases h : name ∈ own.map Prod.fst
  · obtain ⟨a, b, ha, hb, hview⟩ := hsome name h
    rw [if_pos h, ha, hb]
    exact congrArg some hview
  · rw [if_neg h, List.lookup_eq_none_iff.mpr]
    · rfl
    · intro p hp
      rw [bne_iff_ne]
      rintro rfl
      exact h (List.mem_map_of_mem hp)

/-- The object of a tree looks like any value that describes the tree, once it is pruned. -/
theorem Describes.view_object_eq {j : Json} {t : Tree} (h : j.Describes t) : t.object.view = j.pruned.view := by
  induction h with
  | @number fields n hkind hvalue hrange =>
    refine view_eq_view_pruned (by rw [hkind]; rfl) fun name hname => ?_
    obtain rfl | rfl : name = "node_type" ∨ name = "value" := by simpa using hname
    · exact ⟨_, _, rfl, lookup_of_field hkind nofun, rfl⟩
    · exact ⟨_, _, rfl, lookup_of_field hvalue nofun, rfl⟩
  | @binary fields op l r hkind hl hr hop ihl ihr =>
    refine view_eq_view_pruned (by rw [hkind]; rfl) fun name hname => ?_
    obtain rfl | rfl | rfl | rfl : name = "node_type" ∨ name = "operator" ∨ name = "left" ∨ name = "right" := by
      simpa using hname
    · exact ⟨_, _, rfl, lookup_of_field hkind nofun, rfl⟩
    · exact ⟨_, _, rfl, lookup_of_field hop nofun, rfl⟩
    · exact ⟨_, _, rfl, lookup_of_field rfl hl.ne_null, ihl⟩
    · exact ⟨_, _, rfl, lookup_of_field rfl hr.ne_null, ihr⟩

theorem view_pruned_eq_of_fields {fields : List (String × Json)}
    (hown : ∀ name ∈ ownNames (field fields "node_type"), (field fields name).pruned.view = (field fields name).view)
    (hnone : ∀ name ∉ ownNames (field fields "node_type"), fields.lookup name = none) :
    (object fields).pruned.view = (object fields).view := by
  rw [view_pruned, view_object]
  refine congrArg View.object (funext fun name => ?_)
  by_cases h : name ∈ ownNames (field fields "node_type")
  · have hname := hown name h
    rw [field] at hname
    rw [if_pos h]
    cases hlookup : fields.lookup name with
    | none => rfl
    | some j =>
      rw [hlookup] at hname
      exact congrArg some hname
  · rw [if_neg h, hnone name h]
    rfl

theorem view_pruned_field {fields : List (String × Json)} (h : (object fields).pruned.view = (object fields).view)
    (name : String) : (field fields name).pruned.view = (field fields name).view := by
  rw [view_pruned, view_object] at h
  have hname := congrFun (View.object.inj h) name
  rw [field]
  cases hlookup : fields.lookup name with
  | none => rfl
  | some j =>
    simp only [hlookup, Option.map_some] at hname
    split at hname
    · exact Option.some.inj hname
    · cases hname

theorem HasExtra.view_pruned_ne {j : Json} (h : j.HasExtra) : j.pruned.view ≠ j.view := by
  intro hview
  induction h with
  | @here fields name hmem hname =>
    rw [view_pruned, view_object] at hview
    have hlookup := congrFun (View.object.inj hview) name
    obtain ⟨j, hj⟩ := Option.isSome_iff_exists.mp hmem
    simp [hname, hj] at hlookup
  | left h ih => exact ih (view_pruned_field hview "left")
  | right h ih => exact ih (view_pruned_field hview "right")

theorem lookup_eq_none_of_not_hasExtra {fields : List (String × Json)} (h : ¬(object fields).HasExtra) {name : String}
    (hname : name ∉ ownNames (field fields "node_type")) : fields.lookup name = none := by
  by_contra hlookup
  exact h (.here (Option.isSome_iff_ne_none.mpr hlookup) hname)

theorem Describes.view_pruned_eq {j : Json} {t : Tree} (h : j.Describes t) (hplain : ¬j.HasExtra) :
    j.pruned.view = j.view := by
  induction h with
  | @number fields n hkind hvalue hrange =>
    refine view_pruned_eq_of_fields (fun name hname => ?_) fun _ => lookup_eq_none_of_not_hasExtra hplain
    rw [hkind] at hname
    obtain rfl | rfl : name = "node_type" ∨ name = "value" := by simpa [ownNames] using hname
    · rw [hkind]; rfl
    · rw [hvalue]; rfl
  | @binary fields op l r hkind hl hr hop ihl ihr =>
    refine view_pruned_eq_of_fields (fun name hname => ?_) fun _ => lookup_eq_none_of_not_hasExtra hplain
    rw [hkind] at hname
    obtain rfl | rfl | rfl | rfl : name = "node_type" ∨ name = "operator" ∨ name = "left" ∨ name = "right" := by
      simpa [ownNames] using hname
    · rw [hkind]; rfl
    · rw [hop]; rfl
    · exact ihl fun h => hplain (.left h)
    · exact ihr fun h => hplain (.right h)

theorem decode_object {j : Json} {t : Tree} (h : j.decode = .ok t) : t.object.decode = .ok t := by
  rw [decode_eq_recurse]
  exact Tree.InRange.recurse_object (decodeTasks_inRange (by simp) h)

theorem eq_iff_view_pruned_eq {j j' : Json} {t t' : Tree} (h : j.decode = .ok t) (h' : j'.decode = .ok t') :
    t = t' ↔ j.pruned.view = j'.pruned.view := by
  rw [← (decode_eq_ok_iff.mp h).view_object_eq, ← (decode_eq_ok_iff.mp h').view_object_eq]
  constructor
  · rintro rfl
    rfl
  · intro hview
    -- the object of `t'` looks like that of `t`, so it is read as `t` too
    have hread := (decode_eq_ok_iff.mp (decode_object h)).of_view hview.symm
    exact Except.ok.inj ((decode_eq_ok_iff.mpr hread).symm.trans (decode_object h'))

/-- The object of the tree that is read from a value is the value without its extra fields, up to the order of fields,
and is the value itself if and only if it has none. It is read as the tree again. So two values that can be read come to
the same tree if and only if they are the same without their extra fields. -/
theorem encode_decode {j : Json} {t : Tree} (h : j.decode = .ok t) :
    ∃ encoded, t.encode = .ok encoded ∧ encoded.view = j.pruned.view ∧ (encoded.view = j.view ↔ ¬j.HasExtra) ∧
      encoded.decode = .ok t ∧
      ∀ (j' : Json) (t' : Tree), j'.decode = .ok t' → (t = t' ↔ j.pruned.view = j'.pruned.view) := by
  have hd := decode_eq_ok_iff.mp h
  have hview := hd.view_object_eq
  have hin : t.InRange := decodeTasks_inRange (by simp) h
  refine ⟨t.object, hin.expression.encode_eq, hview, ⟨fun heq hextra => ?_, fun hplain => ?_⟩, decode_object h,
    fun _ _ h' => eq_iff_view_pruned_eq h h'⟩
  · exact hextra.view_pruned_ne (hview.symm.trans heq)
  · exact hview.trans (hd.view_pruned_eq hplain)

theorem encode_decode_decorated :
    let left := object [("unit", null), ("value", int 7), ("node_type", string "Number")]
    let right := object [("node_type", string "Number"), ("value", int 2)]
    let fields := [("left", left), ("right", right), ("operator", string "-"), ("value", bool true),
      ("node_type", string "BinaryOp")]
    let j := object fields
    let t := Tree.binary (.known .subtract) (.number 7) (.number 2)
    j.decode = .ok t ∧ j.HasExtra ∧ ∃ encoded, t.encode = .ok encoded ∧ encoded.view ≠ j.view ∧
      encoded.view = j.pruned.view ∧ encoded.decode = .ok t := by
  intro left right fields j t
  have hleft : left.Describes (.number 7) := .number rfl rfl (by decide)
  have hright : right.Describes (.number 2) := .number rfl rfl (by decide)
  have h : j.decode = .ok t := decode_eq_ok_iff.mpr (.binary rfl hleft hright rfl)
  have hsome : (fields.lookup "value").isSome = true := rfl
  have hextra : j.HasExtra := .here hsome (by decide)
  obtain ⟨encoded, hencode, hpruned, hplain, hagain, -⟩ := encode_decode h
  exact ⟨h, hextra, encoded, hencode, fun heq => hplain.mp heq hextra, hpruned, hagain⟩

end Json

end LetterArithmetic
