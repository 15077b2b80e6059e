import LetterArithmetic.Proofs.Numbering
import LetterArithmetic.Report

/-!
Outlines by recursion. The list of entries ahead is worked off one tree after the other, so an outline is the line of
the root, then the outlines of its parts, two further in. Main statement: where all lines can be made there is one for
each node, in the order parent, left, right, and they tell what expression they show, also where a negative indentation
hides how deep the nodes lie.
-/

set_option autoImplicit false

namespace LetterArithmetic

open Outline (Entry)

def margin (indent : Int) : String := String.ofList (List.replicate indent.toNat ' ')

namespace Tree

/-- An outline by recursion: a line for the root, then the outlines of its parts, two further in, also where the
indentation is negative and does not show. -/
def layout (indent : Int) (lead : String) : Tree → String
  | number v => margin indent ++ lead ++ "Number(" ++ v.repr ++ ")"
  | binary s l r =>
      margin indent ++ lead ++ "BinaryOp(" ++ s.shown ++ ")" ++ "\n" ++ l.layout (indent + 2) "left: " ++ "\n" ++
        r.layout (indent + 2) "right: "
  | bare _ => margin indent ++ lead ++ "Unknown node type: <class 'ast_nodes.ASTNode'>"

structure Fits (indent : Int) (t : Tree) : Prop where
  low : -9223372036854775808 ≤ indent
  high : indent + 2 * t.height < 9223372036854775808
  writable : ∀ v ∈ t.leaves, Text.isWritable v = true

def rows (indent : Int) (lead : String) : Tree → List Entry
  | number v => [⟨number v, indent, lead⟩]
  | binary s l r =>
      ⟨binary s l r, indent, lead⟩ :: (l.rows (indent + 2) "left: " ++ r.rows (indent + 2) "right: ")
  | bare k => [⟨bare k, indent, lead⟩]

theorem map_tree_rows (t : Tree) (indent : Int) (lead : String) : (t.rows indent lead).map Entry.tree = t.preorder := by
  induction t generalizing indent lead with
  | binary s l r ihl ihr => simp [rows, preorder, ihl, ihr]
  | _ => simp [rows, preorder]

theorem length_rows (t : Tree) (indent : Int) (lead : String) : (t.rows indent lead).length = t.size := by
  rw [← length_preorder, ← map_tree_rows t indent lead, List.length_map]

theorem rows_ne_nil (t : Tree) (indent : Int) (lead : String) : t.rows indent lead ≠ [] := by
  cases t <;> exact List.cons_ne_nil _ _

def shown : Tree → String
  | number v => "Number(" ++ v.repr ++ ")"
  | binary s _ _ => "BinaryOp(" ++ s.shown ++ ")"
  | bare _ => "Unknown node type: <class 'ast_nodes.ASTNode'>"

/-- Why a line of an outline cannot be made, by the class and the message of the error. -/
inductive Overruns (indent : Int) (t : Tree) : String → String → Prop where
  | indentation (h : indent < -9223372036854775808 ∨ 9223372036854775808 ≤ indent + 2 * t.height) :
      Overruns indent t "OverflowError" "cannot fit 'int' into an index-sized integer"
  | long {v : Int} (hv : v ∈ t.leaves) (hlong : Text.isWritable v = false) :
      Overruns indent t "ValueError" ("Exceeds the limit (4300 digits) for integer string conversion; " ++
        "use sys.set_int_max_str_digits() to increase the limit")

section

variable {l r : Tree} {s : Sign} {indent : Int} {name message : String}

theorem Fits.binary (hlow : -9223372036854775808 ≤ indent) (hl : l.Fits (indent + 2)) (hr : r.Fits (indent + 2)) :
    (Tree.binary s l r).Fits indent := by
  have hleft := hl.high
  have hright := hr.high
  refine ⟨hlow, ?_, fun v hv => (List.mem_append.mp hv).elim (hl.writable v) (hr.writable v)⟩
  simp only [height]
  omega

theorem Overruns.left (hlow : -9223372036854775808 ≤ indent) (h : l.Overruns (indent + 2) name message) :
    (Tree.binary s l r).Overruns indent name message := by
  cases h with
  | indentation h =>
    refine .indentation ?_
    simp only [height]
    omega
  | long hv hlong => exact .long (List.mem_append_left _ hv) hlong

theorem Overruns.right (hlow : -9223372036854775808 ≤ indent) (h : r.Overruns (indent + 2) name message) :
    (Tree.binary s l r).Overruns indent name message := by
  cases h with
  | indentation h =>
    refine .indentation ?_
    simp only [height]
    omega
  | long hv hlong => exact .long (List.mem_append_right _ hv) hlong

theorem Overruns.not_fits {t : Tree} (h : t.Overruns indent name message) : ¬t.Fits indent := by
  intro hfits
  cases h with
  | indentation h =>
    have hlow := hfits.low
    have hhigh := hfits.high
    omega
  | long hv hlong => cases hlong.symm.trans (hfits.writable _ hv)

end

end Tree

namespace Outline

def Entry.shown (e : Entry) : String := margin e.indent ++ e.lead ++ e.tree.shown

variable {t : Tree} {indent : Int}

theorem spaces_eq_ok (hlow : -9223372036854775808 ≤ indent) (hhigh : indent < 9223372036854775808) :
    spaces indent = .ok (margin indent) := by
  simp [spaces, isMachineWord, margin, hlow, hhigh]

theorem spaces_eq_error (h : indent < -9223372036854775808 ∨ 9223372036854775808 ≤ indent) :
    spaces indent = .error .indentation := by
  have hword : isMachineWord indent = false := by
    simp [isMachineWord]
    omega
  rw [spaces, hword]
  rfl

theorem caption_cases (t : Tree) :
    ((∀ v, t = .number v → Text.isWritable v = true) ∧ t.caption = .ok t.shown) ∨
      ∃ v, t = .number v ∧ Text.isWritable v = false ∧ t.caption = .error {} := by
  cases t with
  | number v =>
    cases hv : Text.isWritable v with
    | true =>
      refine .inl ⟨fun w hw => Tree.number.inj hw ▸ hv, ?_⟩
      rw [Tree.caption, Text.writeInteger, if_pos hv]
      rfl
    | false =>
      refine .inr ⟨v, rfl, hv, ?_⟩
      rw [Tree.caption, Text.writeInteger, if_neg (Bool.not_eq_true _ ▸ hv)]
      rfl
  | binary s l r =>
    refine .inl ⟨fun v h => Tree.noConfusion h, ?_⟩
    rw [Tree.caption, s.text_eq_shown]
    rfl
  | bare k => exact .inl ⟨fun v h => Tree.noConfusion h, rfl⟩

theorem line_cases (t : Tree) (indent : Int) (lead : String) :
    (-9223372036854775808 ≤ indent ∧ indent < 9223372036854775808 ∧ (∀ v, t = .number v → Text.isWritable v = true) ∧
      (⟨t, indent, lead⟩ : Entry).line = .ok (⟨t, indent, lead⟩ : Entry).shown) ∨
    ∃ f, t.Overruns indent f.kind.name f.message ∧ (⟨t, indent, lead⟩ : Entry).line = .error f := by
  by_cases hword : -9223372036854775808 ≤ indent ∧ indent < 9223372036854775808
  · obtain ⟨hlow, hhigh⟩ := hword
    have hspaces := spaces_eq_ok hlow hhigh
    rcases caption_cases t with ⟨hw, hcaption⟩ | ⟨v, rfl, hlong, hcaption⟩
    · refine .inl ⟨hlow, hhigh, hw, ?_⟩
      rw [Entry.line, hspaces, hcaption]
      rfl
    · refine .inr ⟨.long {}, .long (List.mem_singleton_self v) hlong, ?_⟩
      rw [Entry.line, hspaces, hcaption]
      rfl
  · have hout : indent < -9223372036854775808 ∨ 9223372036854775808 ≤ indent := by omega
    refine .inr ⟨.indentation, .indentation (by omega), ?_⟩
    rw [Entry.line, spaces_eq_error hout]
    rfl

/-- The entries ahead of a tree wait until all of its lines are made. -/
theorem lines_cases (t : Tree) (indent : Int) (lead : String) :
    (t.Fits indent ∧ ∀ done ahead, lines done (⟨t, indent, lead⟩ :: ahead) =
      lines (((t.rows indent lead).map Entry.shown).reverse ++ done) ahead) ∨
    ∃ f, t.Overruns indent f.kind.name f.message ∧
      ∀ done ahead, lines done (⟨t, indent, lead⟩ :: ahead) = .error f := by
  induction t generalizing indent lead with
  | number v =>
    rcases line_cases (.number v) indent lead with ⟨hlow, hhigh, hw, hline⟩ | ⟨f, hover, hline⟩
    · refine .inl ⟨⟨hlow, ?_, ?_⟩, fun done ahead => ?_⟩
      · simpa [Tree.height] using hhigh
      · simpa [Tree.leaves] using hw
      · rw [lines, hline]
        rfl
    · exact .inr ⟨f, hover, fun done ahead => by rw [lines, hline]; rfl⟩
  | bare k =>
    rcases line_cases (.bare k) indent lead with ⟨hlow, hhigh, -, hline⟩ | ⟨f, hover, hline⟩
    · refine .inl ⟨⟨hlow, ?_, ?_⟩, fun done ahead => ?_⟩
      · simpa [Tree.height] using hhigh
      · simp [Tree.leaves]
      · rw [lines, hline]
        rfl
    · exact .inr ⟨f, hover, fun done ahead => by rw [lines, hline]; rfl⟩
  | binary s l r ihl ihr =>
    rcases line_cases (.binary s l r) indent lead with ⟨hlow, -, -, hline⟩ | ⟨f, hover, hline⟩
    · have hparts : ∀ done ahead, lines done (⟨.binary s l r, indent, lead⟩ :: ahead) =
          lines ((⟨.binary s l r, indent, lead⟩ : Entry).shown :: done)
            (⟨l, indent + 2, "left: "⟩ :: ⟨r, indent + 2, "right: "⟩ :: ahead) := by
        intro done ahead
        rw [lines, hline]
        rfl
      -- the lines of the left part come first, so its fault does
      rcases ihl (indent + 2) "left: " with ⟨hl, hleft⟩ | ⟨f, hover, hleft⟩
      · rcases ihr (indent + 2) "right: " with ⟨hr, hright⟩ | ⟨f, hover, hright⟩
        · refine .inl ⟨.binary hlow hl hr, fun done ahead => ?_⟩
          rw [hparts, hleft, hright, Tree.rows]
          simp only [List.map_cons, List.map_append, List.reverse_cons, List.reverse_append, List.append_assoc,
            List.cons_append, List.nil_append]
        · exact .inr ⟨f, hover.right hlow, fun done ahead => by rw [hparts, hleft, hright]⟩
      · exact .inr ⟨f, hover.left hlow, fun done ahead => by rw [hparts, hleft]⟩
    · exact .inr ⟨f, hover, fun done ahead => by rw [lines, hline]; rfl⟩

end Outline

namespace Tree

theorem outline_cases (t : Tree) (indent : Int) (lead : String) :
    (t.Fits indent ∧ t.outline indent lead = .ok ("\n".intercalate ((t.rows indent lead).map Entry.shown))) ∨
    ∃ f, t.Overruns indent f.kind.name f.message ∧ t.outline indent lead = .error f := by
  rcases Outline.lines_cases t indent lead with ⟨hfits, hlines⟩ | ⟨f, hover, hlines⟩
  · refine .inl ⟨hfits, ?_⟩
    rw [outline, hlines, Outline.lines, List.append_nil, List.reverse_reverse]
    rfl
  · refine .inr ⟨f, hover, ?_⟩
    rw [outline, hlines]
    rfl

theorem Fits.outline_eq {t : Tree} {indent : Int} (h : t.Fits indent) (lead : String) :
    t.outline indent lead = .ok ("\n".intercalate ((t.rows indent lead).map Entry.shown)) := by
  rcases t.outline_cases indent lead with ⟨-, hok⟩ | ⟨f, hover, -⟩
  · exact hok
  · exact absurd h hover.not_fits

theorem layout_binary (s : Sign) (l r : Tree) (indent : Int) (lead : String) :
    "\n".intercalate (((binary s l r).rows indent lead).map Entry.shown) =
      (⟨binary s l r, indent, lead⟩ : Entry).shown ++ "\n" ++
        "\n".intercalate ((l.rows (indent + 2) "left: ").map Entry.shown) ++ "\n" ++
        "\n".intercalate ((r.rows (indent + 2) "right: ").map Entry.shown) := by
  have hl := l.rows_ne_nil (indent + 2) "left: "
  have hr := r.rows_ne_nil (indent + 2) "right: "
  rw [rows, List.map_cons, List.map_append, String.intercalate_cons_of_ne_nil (by simp [hl]),
    String.intercalate_append_of_ne_nil (by simpa using hl) (by simpa using hr)]
  simp only [String.append_assoc]

theorem layout_eq (t : Tree) (indent : Int) (lead : String) :
    t.layout indent lead = "\n".intercalate ((t.rows indent lead).map Entry.shown) := by
  induction t generalizing indent lead with
  | binary s l r ihl ihr =>
    rw [layout_binary, ← ihl, ← ihr, layout]
    simp only [Entry.shown, shown, String.append_assoc]
  | _ =>
    simp only [rows, List.map_cons, List.map_nil, String.intercalate_singleton, Entry.shown, shown, layout,
      String.append_assoc]

end Tree

section Lines

theorem Tree.IsExpression.newline_notMem_shown {t : Tree} (ht : t.IsExpression) : '\n' ∉ t.shown.toList := by
  cases ht with
  | number v => simp [shown, notMem_repr (c := '\n') (by decide) rfl v]
  | binary op left right => cases op <;> simp [shown, Sign.shown]

theorem Tree.IsExpression.newline_notMem_rows {t : Tree} (ht : t.IsExpression) {indent : Int} {lead : String}
    (hlead : '\n' ∉ lead.toList) : ∀ e ∈ t.rows indent lead, '\n' ∉ e.shown.toList := by
  induction ht generalizing indent lead with
  | number v =>
    intro e he
    obtain rfl := List.mem_singleton.mp he
    simp [Entry.shown, margin, hlead, (IsExpression.number v).newline_notMem_shown]
  | @binary op l r left right ihl ihr =>
    intro e he
    simp only [rows, List.mem_cons, List.mem_append] at he
    obtain rfl | he | he := he
    · simp [Entry.shown, margin, hlead, (IsExpression.binary op left right).newline_notMem_shown]
    · exact ihl (by decide) e he
    · exact ihr (by decide) e he

theorem Tree.IsExpression.split_layout {t : Tree} (ht : t.IsExpression) (indent : Int) {lead : String}
    (hlead : '\n' ∉ lead.toList) :
    ((t.layout indent lead).split '\n').toList.map String.Slice.copy = (t.rows indent lead).map Entry.shown := by
  have hlines : ∀ s ∈ (t.rows indent lead).map Entry.shown, '\n' ∉ s.toList := by
    intro s hs
    obtain ⟨e, he, rfl⟩ := List.mem_map.mp hs
    exact ht.newline_notMem_rows hlead e he
  have hsplit := String.toList_split_intercalate hlines
  rwa [if_neg (by simp [t.rows_ne_nil]), ← show "\n" = String.singleton '\n' from rfl, ← t.layout_eq] at hsplit

end Lines

section Injective

variable {indent : Int} {lead : String} {x y : List Char}

theorem toList_layout_number (v : Int) :
    ((Tree.number v).layout indent lead).toList ++ x =
      (margin indent ++ lead).toList ++ ("Number(".toList ++ (v.repr.toList ++ ')' :: x)) := by
  simp [Tree.layout]

theorem toList_layout_binary (op : Operator) (l r : Tree) :
    ((Tree.binary (.known op) l r).layout indent lead).toList ++ x =
      (margin indent ++ lead).toList ++ ("BinaryOp(".toList ++ (op.symbol :: ')' :: '\n' ::
        ((l.layout (indent + 2) "left: ").toList ++ '\n' :: ((r.layout (indent + 2) "right: ").toList ++ x)))) := by
  have hshown : (Sign.known op).shown = String.singleton op.symbol := (Sign.text_eq_shown _).symm
  simp [Tree.layout, hshown]

theorem Tree.IsExpression.layout_append_inj {t u : Tree} (ht : t.IsExpression) (hu : u.IsExpression)
    (h : (t.layout indent lead).toList ++ x = (u.layout indent lead).toList ++ y) : t = u ∧ x = y := by
  induction ht generalizing u indent lead x y with
  | number v =>
    cases hu with
    | number w =>
      rw [toList_layout_number, toList_layout_number] at h
      obtain ⟨rfl, hrest⟩ := repr_append_inj (head_not_digit rfl _) (head_not_digit rfl _)
        (List.append_cancel_left (List.append_cancel_left h))
      exact ⟨rfl, (List.cons.inj hrest).2⟩
    | binary op left right =>
      rw [toList_layout_number, toList_layout_binary] at h
      cases List.append_cancel_left h
  | @binary op l r left right ihl ihr =>
    cases hu with
    | number w =>
      rw [toList_layout_number, toList_layout_binary] at h
      cases List.append_cancel_left h
    | @binary op' l' r' left' right' =>
      -- behind the operator both texts go on with the left part, with the same indentation and the same words in front
      rw [toList_layout_binary, toList_layout_binary] at h
      have hcaption := List.append_cancel_left (List.append_cancel_left h)
      obtain ⟨hop, hparts⟩ := List.cons.inj hcaption
      obtain rfl := Operator.symbol_injective hop
      obtain ⟨rfl, hright⟩ := ihl left' (List.cons.inj (List.cons.inj hparts).2).2
      obtain ⟨rfl, hrest⟩ := ihr right' (List.cons.inj hright).2
      exact ⟨rfl, hrest⟩

end Injective

theorem Tree.outline_eq_ok_iff {t : Tree} {indent : Int} {lead text : String} :
    t.outline indent lead = .ok text ↔ t.Fits indent ∧ t.layout indent lead = text := by
  rw [layout_eq]
  rcases t.outline_cases indent lead with ⟨hfits, hok⟩ | ⟨f, hover, herror⟩
  · rw [hok, and_iff_right hfits]
    exact ⟨Except.ok.inj, congrArg Except.ok⟩
  · rw [herror]
    exact iff_of_false nofun fun h => hover.not_fits h.1

/-- Where the numbers of a tree can be written and the indentations are machine words, its outline is the one by
recursion: the line of the root, and below it those of its parts, two further in. Elsewhere the outline fails, for one
of these reasons. The outline of an expression has a line for each node, in the order parent, left, right, unless there
are line ends in the words in front; and whatever these are, different expressions have different outlines. -/
theorem outline_layout :
    (∀ (t : Tree) (indent : Int) (lead : String), t.Fits indent → t.outline indent lead = .ok (t.layout indent lead)) ∧
    (∀ (t : Tree) (indent : Int) (lead : String), ¬t.Fits indent →
      ∃ f, t.outline indent lead = .error f ∧ t.Overruns indent f.kind.name f.message) ∧
    (∀ (t : Tree) (indent : Int) (lead text : String), t.outline indent lead = .ok text → t.IsExpression →
      '\n' ∉ lead.toList →
      (text.split '\n').toList.map String.Slice.copy = (t.rows indent lead).map Entry.shown ∧
        (t.rows indent lead).map Entry.tree = t.preorder ∧ (text.split '\n').toList.length = t.size) ∧
    ∀ (t u : Tree) (indent : Int) (lead text : String), t.IsExpression → u.IsExpression →
      t.outline indent lead = .ok text → u.outline indent lead = .ok text → t = u := by
  refine ⟨fun t indent lead h => Tree.outline_eq_ok_iff.mpr ⟨h, rfl⟩, fun t indent lead h => ?_,
    fun t indent lead text htext ht hlead => ?_, fun t u indent lead text ht hu htext htext' => ?_⟩
  · rcases t.outline_cases indent lead with ⟨hfits, -⟩ | ⟨f, hover, herror⟩
    · exact absurd hfits h
    · exact ⟨f, herror, hover⟩
  · obtain ⟨-, rfl⟩ := Tree.outline_eq_ok_iff.mp htext
    have hlines := ht.split_layout indent hlead
    refine ⟨hlines, t.map_tree_rows indent lead, ?_⟩
    rw [← t.length_rows indent lead, ← List.length_map (f := Entry.shown), ← hlines, List.length_map]
  · obtain ⟨-, rfl⟩ := Tree.outline_eq_ok_iff.mp htext
    obtain ⟨-, hsame⟩ := Tree.outline_eq_ok_iff.mp htext'
    have hchars : (t.layout indent lead).toList ++ [] = (u.layout indent lead).toList ++ [] := by rw [hsame]
    exact (ht.layout_append_inj hu hchars).1

theorem outline_layout_hidden :
    let t := Tree.binary (.known .multiply) (.binary (.known .add) (.number 1) (.number (-2))) (.number 3)
    let text := "> BinaryOp(*)\nleft: BinaryOp(+)\nleft: Number(1)\nright: Number(-2)\nright: Number(3)"
    (t.Fits (-4) ∧ t.outline (-4) "> " = .ok text ∧ '\n' ∉ "> ".toList ∧ (text.split '\n').toList.length = 5) ∧
    (∀ u : Tree, u.IsExpression → u.outline (-4) "> " = .ok text → u = t) ∧
    ∃ f, t.outline (-9223372036854775809) "> " = .error f := by
  intro t text
  obtain ⟨hlayout, hfault, hlines, hinj⟩ := outline_layout
  have ht : t.IsExpression := .binary _ (.binary _ (.number _) (.number _)) (.number _)
  have hfits : t.Fits (-4) := ⟨by decide, by decide, by decide +kernel⟩
  have htext : t.outline (-4) "> " = .ok text := by
    rw [hlayout t (-4) "> " hfits]
    cbv
  have hlead : '\n' ∉ "> ".toList := by decide
  have hlow : ¬t.Fits (-9223372036854775809) := fun h => absurd h.low (by decide)
  obtain ⟨f, hf, -⟩ := hfault t _ "> " hlow
  exact ⟨⟨hfits, htext, hlead, (hlines t (-4) "> " text htext ht hlead).2.2⟩,
    fun u hu hsame => hinj u t (-4) "> " text hu ht hsame htext, f, hf⟩

theorem outline_ne_layout_low :
    (Tree.number 1).outline (-9223372036854775809) "" = .error .indentation ∧
      OutlineFault.indentation.kind.name = "OverflowError" ∧
      (Tree.number 1).layout (-9223372036854775809) "" = "Number(1)" ∧
      ¬∀ (t : Tree) (indent : Int) (lead : String), t.outline indent lead = .ok (t.layout indent lead) := by
  have hfault : (Tree.number 1).outline (-9223372036854775809) "" = .error .indentation := by
    rw [Tree.outline, Outline.lines]
    rfl
  refine ⟨hfault, rfl, by cbv, fun h => ?_⟩
  cases hfault.symm.trans (h _ _ _)

end LetterArithmetic
