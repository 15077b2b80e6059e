import LetterArithmetic.Proofs.Letters
import LetterArithmetic.Proofs.Numerals

/-!
Infix form as letters and as a code. With a letter for each symbol and without blanks, the infix form of a tree spells
the phrase that has a group around every binary part. Main statement: it is read as the tree, unless the tree is higher
than groups may nest, and no two expressions have one infix form.
-/

set_option autoImplicit false

namespace LetterArithmetic

namespace Tree

def parenthesized : Tree → String
  | number v => v.repr
  | binary s l r => "(" ++ l.parenthesized ++ " " ++ s.text ++ " " ++ r.parenthesized ++ ")"
  | bare _ => ""

theorem IsExpression.grouping_eq {t : Tree} (ht : t.IsExpression) : t.grouping = .ok t.parenthesized :=
  ht.fold_eq_ok id Int.repr _ parenthesized (fun _ => rfl) fun _ _ _ => rfl

end Tree

def letterFor : Char → Char
  | '+' => 'a'
  | '-' => 'b'
  | '*' => 'c'
  | '/' => 'd'
  | '(' => 'e'
  | ')' => 'f'
  | c => c

def transliterated (u : List Char) : List Char := (u.filter fun c => c != ' ').map letterFor

def inLetters (s : String) : String := String.ofList (transliterated s.toList)

theorem transliterated_append (u v : List Char) : transliterated (u ++ v) = transliterated u ++ transliterated v := by
  simp [transliterated]

theorem letterFor_of_isDigit {c : Char} (hc : c.isDigit = true) : letterFor c = c := by
  unfold letterFor
  split
  all_goals first | rfl | exact absurd hc (by decide)

theorem transliterated_digits {u : List Char} (hu : ∀ c ∈ u, c.isDigit = true) : transliterated u = u := by
  have hblank : ∀ c ∈ u, (c != ' ') = true := by
    intro c hc
    have hd := hu c hc
    rw [bne_iff_ne]
    rintro rfl
    cases hd
  rw [transliterated, List.filter_eq_self.mpr hblank]
  exact (List.map_congr_left fun c hc => letterFor_of_isDigit (hu c hc)).trans (List.map_id u)

namespace Phrase

/-- A group around each binary part, and no other groups. -/
def enclosed : Phrase → Phrase
  | number v => number v
  | group p => p.enclosed
  | binary op l r => group (binary op l.enclosed r.enclosed)

theorem tree_enclosed (p : Phrase) : p.enclosed.tree = p.tree := by
  induction p with
  | number v => rfl
  | group p ih => exact ih
  | binary op l r ihl ihr => simp only [enclosed, tree, ihl, ihr]

theorem nesting_enclosed (p : Phrase) : p.enclosed.nesting = p.tree.height := by
  induction p with
  | number v => rfl
  | group p ih => exact ih
  | binary op l r ihl ihr => simp only [enclosed, nesting, tree, Tree.height, ihl, ihr]

theorem binds_enclosed (ranks : Ranks) (min : Int) (p : Phrase) : p.enclosed.Binds ranks min := by
  induction p with
  | number v => trivial
  | group p ih => exact ih
  | binary op l r => trivial

theorem wellRanked_enclosed (p : Phrase) : p.enclosed.WellRanked Ranks.level := by
  induction p with
  | number v => trivial
  | group p ih => exact ih
  | binary op l r ihl ihr => exact ⟨3, rfl, by decide, l.binds_enclosed _ _, r.binds_enclosed _ _, ihl, ihr⟩

theorem transliterated_parenthesized {p : Phrase} (hp : ∀ v ∈ p.tree.leaves, 0 ≤ v ∧ v ≤ maxValue) :
    transliterated p.tree.parenthesized.toList = spell p.enclosed.tokens := by
  induction p with
  | number v =>
    obtain ⟨n, rfl⟩ := Int.eq_ofNat_of_zero_le (hp v (by simp [tree, Tree.leaves])).1
    simp only [tree, Tree.parenthesized, enclosed, tokens, spell_cons, spell_nil, List.append_nil]
    exact transliterated_digits fun c hc => Token.isDigit_of_mem_spelling hc
  | group p ih => exact ih hp
  | binary op l r ihl ihr =>
    simp only [tree, Tree.leaves, List.mem_append] at hp
    have hop : transliterated (String.singleton op.symbol).toList = [op.letter] := by cases op <;> rfl
    have hblank : transliterated " ".toList = [] := rfl
    have hopen : transliterated "(".toList = ['e'] := rfl
    have hclose : transliterated ")".toList = ['f'] := rfl
    simp only [tree, Tree.parenthesized, Sign.text, String.toList_append, transliterated_append, hop, hblank, hopen,
      hclose, ihl fun v hv => hp v (.inl hv), ihr fun v hv => hp v (.inr hv)]
    simp [enclosed, tokens, Token.spelling]

end Phrase

/-- Expressions in front of what does not start with a digit are seen from their infix form. -/
theorem Tree.IsExpression.parenthesized_append_inj {t u : Tree} (ht : t.IsExpression) (hu : u.IsExpression)
    {x y : List Char} (hx : ∀ c ∈ x.head?, c.isDigit = false) (hy : ∀ c ∈ y.head?, c.isDigit = false)
    (h : t.parenthesized.toList ++ x = u.parenthesized.toList ++ y) : t = u ∧ x = y := by
  have hbinary : ∀ (op : Operator) (l r : Tree) (x : List Char),
      (Tree.binary (.known op) l r).parenthesized.toList ++ x =
      '(' :: (l.parenthesized.toList ++ ' ' :: op.symbol :: ' ' :: (r.parenthesized.toList ++ ')' :: x)) := by
    intro op l r x
    simp [Tree.parenthesized, Sign.text]
  induction ht generalizing u x y with
  | number v =>
    cases hu with
    | number w =>
      obtain ⟨rfl, hxy⟩ := repr_append_inj hx hy h
      exact ⟨rfl, hxy⟩
    | binary op left right =>
      rw [hbinary] at h
      exact absurd h (repr_append_ne (by decide) rfl v _ _)
  | @binary op l r left right ihl ihr =>
    cases hu with
    | number w =>
      rw [hbinary] at h
      exact absurd h.symm (repr_append_ne (by decide) rfl w _ _)
    | @binary op' l' r' left' right' =>
      -- a blank follows the left part and a bracket the right one, and neither goes on with a number
      rw [hbinary, hbinary] at h
      obtain ⟨rfl, hrest⟩ := ihl left' (head_not_digit rfl _) (head_not_digit rfl _) (List.cons.inj h).2
      obtain ⟨hop, hright⟩ : op.symbol = op'.symbol ∧
          r.parenthesized.toList ++ ')' :: x = r'.parenthesized.toList ++ ')' :: y := by
        simpa using hrest
      obtain rfl := Operator.symbol_injective hop
      obtain ⟨rfl, hafter⟩ := ihr right' (head_not_digit rfl _) (head_not_digit rfl _) hright
      exact ⟨rfl, (List.cons.inj hafter).2⟩

/-- The infix form of an expression with values in range, in letters and without blanks, is read as the expression, if
that is at most 200 high, and then comes to the same value or the same fault. If it is higher, its groups are too deep.
Expressions that have one infix form are the same, whatever their height and their values. -/
theorem ofText_grouping :
    (∀ t : Tree, t.IsExpression → (∀ v ∈ t.leaves, 0 ≤ v ∧ v ≤ maxValue) →
      ∃ s, t.grouping = .ok s ∧
        (t.height ≤ 200 → Tree.ofText (inLetters s) = .ok t ∧
          calculate (inLetters s) = t.evaluate.mapError .evaluation) ∧
        (200 < t.height → Tree.ofText (inLetters s) = .error (.read .tooDeep) ∧
          (Fault.read .tooDeep).report? = some (.misread .parser "Expression nested too deeply"))) ∧
    ∀ t u : Tree, t.IsExpression → u.IsExpression → ∃ s, t.grouping = .ok s ∧ (u.grouping = .ok s → t = u) := by
  refine ⟨fun t ht hv => ?_, fun t u ht hu => ⟨_, ht.grouping_eq, fun h => ?_⟩⟩
  · obtain ⟨p, rfl⟩ := ht.exists_phrase
    have hs : Spellable p.enclosed.tokens := Phrase.spellable_tokens (by rwa [p.tree_enclosed])
    have hletters : inLetters p.tree.parenthesized = String.ofList (spell p.enclosed.tokens) := by
      rw [inLetters, Phrase.transliterated_parenthesized hv]
    refine ⟨_, ht.grouping_eq, fun hn => ?_, fun hn => ⟨?_, rfl⟩⟩
    · have hread : Tree.ofText (inLetters p.tree.parenthesized) = .ok p.tree := by
        rw [hletters, Phrase.ofText_spell hs p.wellRanked_enclosed (by rwa [p.nesting_enclosed]), p.tree_enclosed]
      refine ⟨hread, ?_⟩
      rw [calculate_eq, hread]
      rfl
    · rw [hletters, Phrase.ofText_spell_tooDeep hs p.wellRanked_enclosed (by rwa [p.nesting_enclosed])]
  · rw [hu.grouping_eq] at h
    have hlists := congrArg String.toList (Except.ok.inj h).symm
    refine (ht.parenthesized_append_inj hu (x := []) (y := []) (by simp) (by simp) ?_).1
    rw [hlists]

theorem ofText_grouping_signs :
    let t : Tree := .binary (.known .subtract) (.binary (.known .divide) (.number 18446744073709551615) (.number 0))
      (.binary (.known .multiply) (.number 2) (.number 3))
    let chain : Tree := (List.replicate 201 2).foldl (fun l v => .binary (.known .add) l (.number v)) (.number 1)
    let u : Tree := .binary (.known .subtract) (.number (-1)) (.number (-2))
    (t.grouping = .ok "((18446744073709551615 / 0) - (2 * 3))" ∧ t.height ≤ 200 ∧
      inLetters "((18446744073709551615 / 0) - (2 * 3))" = "ee18446744073709551615d0fbe2c3ff" ∧
      Tree.ofText "ee18446744073709551615d0fbe2c3ff" = .ok t) ∧
    (200 < chain.height ∧ ∃ s, chain.grouping = .ok s ∧ Tree.ofText (inLetters s) = .error (.read .tooDeep)) ∧
    u.grouping = .ok "(-1 - -2)" ∧ ∀ w : Tree, w.IsExpression → w.grouping = .ok "(-1 - -2)" → w = u := by
  intro t chain u
  obtain ⟨hread, hcode⟩ := ofText_grouping
  refine ⟨?_, ?_, ?_⟩
  · have ht : t.IsExpression := .binary _ (.binary _ (.number _) (.number _)) (.binary _ (.number _) (.number _))
    have hv : ∀ v ∈ t.leaves, 0 ≤ v ∧ v ≤ maxValue := by decide
    have hheight : t.height ≤ 200 := by decide
    have hgrouping : t.grouping = .ok "((18446744073709551615 / 0) - (2 * 3))" := by
      rw [ht.grouping_eq]
      cbv
    have hletters : inLetters "((18446744073709551615 / 0) - (2 * 3))" = "ee18446744073709551615d0fbe2c3ff" := by cbv
    obtain ⟨s, hs, hlow, -⟩ := hread t ht hv
    obtain rfl : "((18446744073709551615 / 0) - (2 * 3))" = s := Except.ok.inj (hgrouping.symm.trans hs)
    exact ⟨hgrouping, hheight, hletters, hletters ▸ (hlow hheight).1⟩
  · have hspine : ∀ (vs : List Int) (l : Tree), l.IsExpression →
        (vs.foldl (fun l v => Tree.binary (.known .add) l (.number v)) l).IsExpression := by
      intro vs
      induction vs with
      | nil => exact fun l hl => hl
      | cons v vs ih => exact fun l hl => ih _ (.binary .add hl (.number v))
    have hv : ∀ v ∈ chain.leaves, 0 ≤ v ∧ v ≤ maxValue := by decide +kernel
    have hheight : 200 < chain.height := by decide +kernel
    obtain ⟨s, hs, -, hhigh⟩ := hread chain (hspine _ _ (.number 1)) hv
    exact ⟨hheight, s, hs, (hhigh hheight).1⟩
  · have hu : u.IsExpression := .binary _ (.number _) (.number _)
    have hsigns : u.grouping = .ok "(-1 - -2)" := by
      rw [hu.grouping_eq]
      cbv
    refine ⟨hsigns, fun w hw hsame => ?_⟩
    obtain ⟨s, hs, hcode⟩ := hcode w u hw hu
    obtain rfl : "(-1 - -2)" = s := Except.ok.inj (hsame.symm.trans hs)
    exact hcode hsigns

end LetterArithmetic
