import LetterArithmetic.Calculator
import LetterArithmetic.Proofs.Calls
import LetterArithmetic.Proofs.Spelling
import LetterArithmetic.Proofs.Walk

/-!
Trees written in letters and read again. The letters of a tree spell the phrase of the tree that has the fewest
groups. Main statement: the letters of an expression are read as the expression, unless its groups nest deeper than
is allowed, which is then the fault.
-/

set_option autoImplicit false

namespace LetterArithmetic

namespace Phrase

def grouped : Phrase → Phrase
  | binary op l r => group (binary op l r)
  | p => p

/-- Leave only the groups that reading from the left needs: those around binary right parts. -/
def pruned : Phrase → Phrase
  | number v => number v
  | group p => p.pruned
  | binary op l r => binary op l.pruned r.pruned.grouped

theorem grouped_pruned (p : Phrase) :
    p.pruned.grouped = if p.tree.isBinary then group p.pruned else p.pruned := by
  induction p with
  | number v => rfl
  | group p ih => exact ih
  | binary op l r => rfl

theorem tree_pruned (p : Phrase) : p.pruned.tree = p.tree := by
  induction p with
  | number v => rfl
  | group p ih => exact ih
  | binary op l r ihl ihr =>
    simp only [pruned, tree, ihl, grouped_pruned]
    split
    · simp only [tree, ihr]
    · rw [ihr]

theorem wellRanked_pruned (p : Phrase) : p.pruned.WellRanked Ranks.level := by
  induction p with
  | number v => trivial
  | group p ih => exact ih
  | binary op l r ihl ihr =>
    refine ⟨3, rfl, by decide, l.pruned.binds_level, ?_, ihl, ?_⟩
    · cases hr : r.pruned <;> trivial
    · rw [grouped_pruned]
      split
      · exact ihr
      · exact ihr

end Phrase

namespace Tree

/-- How deep the groups nest that the letters of a tree need. -/
def groupDepth : Tree → Nat
  | number _ | bare _ => 0
  | binary _ l r => max l.groupDepth (if r.isBinary then r.groupDepth + 1 else 0)

theorem groupDepth_of_not_binary {t : Tree} (h : t.isBinary = false) : t.groupDepth = 0 := by
  cases t with
  | number v => rfl
  | bare k => rfl
  | binary s l r => cases h

theorem IsExpression.exists_phrase {t : Tree} (h : t.IsExpression) : ∃ p : Phrase, p.tree = t := by
  induction h with
  | number v => exact ⟨.number v, rfl⟩
  | binary op left right ihl ihr =>
    obtain ⟨p, rfl⟩ := ihl
    obtain ⟨q, rfl⟩ := ihr
    exact ⟨.binary op p q, rfl⟩

end Tree

namespace Phrase

theorem nesting_pruned (p : Phrase) : p.pruned.nesting = p.tree.groupDepth := by
  induction p with
  | number v => rfl
  | group p ih => exact ih
  | binary op l r ihl ihr =>
    simp only [pruned, nesting, tree, Tree.groupDepth, ihl, grouped_pruned]
    by_cases hr : r.tree.isBinary = true
    · simp only [hr, if_true, nesting, ihr]
    · -- a right part without an operator has no group, neither around it nor inside
      have := Tree.groupDepth_of_not_binary (Bool.not_eq_true _ ▸ hr)
      simp only [hr, if_false, ihr, this, Bool.false_eq_true]

theorem letters_tree (p : Phrase) : p.tree.letters = .ok (String.ofList (spell p.pruned.tokens)) := by
  rw [Tree.letters, Tree.fold_eq_recurse]
  induction p with
  | number v => simp [tree, Visitor.recurse, pruned, tokens, Token.spelling]
  | group p ih => exact ih
  | binary op l r ihl ihr =>
    simp only [tree, Visitor.recurse, ihl, ihr, pruned, tokens, grouped_pruned]
    refine congrArg Except.ok (String.toList_injective ?_)
    split
    · simp [tokens, Token.spelling]
    · simp [Token.spelling]

theorem hasSpelling_of_mem_tokens {p : Phrase} (hp : ∀ v ∈ p.tree.leaves, 0 ≤ v ∧ v ≤ maxValue) {t : Token}
    (ht : t ∈ p.tokens) : t.HasSpelling := by
  induction p with
  | number v =>
    obtain rfl := List.mem_singleton.mp ht
    exact hp v (by simp [tree, Tree.leaves])
  | group p ih =>
    simp only [tokens, List.mem_cons, List.mem_append, List.not_mem_nil, or_false] at ht
    obtain rfl | ht | rfl := ht
    · trivial
    · exact ih hp ht
    · trivial
  | binary op l r ihl ihr =>
    simp only [tree, Tree.leaves, List.mem_append] at hp
    simp only [tokens, List.mem_append, List.mem_cons] at ht
    obtain ht | rfl | ht := ht
    · exact ihl (fun v hv => hp v (.inl hv)) ht
    · trivial
    · exact ihr (fun v hv => hp v (.inr hv)) ht

theorem apart_tokens (p : Phrase) : p.tokens.IsChain Token.Apart := by
  induction p with
  | number v => exact .singleton _
  | group p ih =>
    refine List.IsChain.cons (List.isChain_append.mpr ⟨ih, .singleton _, ?_⟩) ?_
    · intro t _ u hu
      obtain rfl : Token.rightParen = u := by simpa using hu
      simp [Token.Apart, Token.kind]
    · simp [Token.Apart, Token.kind]
  | binary op l r ihl ihr =>
    have hop : (Token.operator op).kind ≠ .number := by cases op <;> simp [Token.kind, Operator.tokenKind]
    refine List.isChain_append.mpr ⟨ihl, List.IsChain.cons ihr ?_, ?_⟩
    · intro u _ hk
      exact absurd hk hop
    · intro t _ u hu _
      obtain rfl : Token.operator op = u := by simpa using hu
      exact hop

theorem spellable_tokens {p : Phrase} (hp : ∀ v ∈ p.tree.leaves, 0 ≤ v ∧ v ≤ maxValue) : Spellable p.tokens :=
  ⟨fun _ ht => hasSpelling_of_mem_tokens hp ht, p.apart_tokens⟩

end Phrase

def Tree.ofText (s : String) : Except Fault Tree :=
  match scan s with
  | .error f => .error (.scan f)
  | .ok ts => (Tree.ofTokens {} ts).mapError .read

theorem calculate_eq (s : String) : calculate s = Tree.ofText s >>= fun t => t.evaluate.mapError .evaluation := by
  unfold calculate Tree.ofText
  cases scan s with
  | error f => rfl
  | ok ts =>
    dsimp only
    cases Tree.ofTokens {} ts with
    | error f => rfl
    | ok t => rfl

namespace Phrase

variable {p : Phrase}

theorem ofText_spell (hs : Spellable p.tokens) (hp : p.WellRanked Ranks.level) (hn : p.nesting ≤ 200) :
    Tree.ofText (String.ofList (spell p.tokens)) = .ok p.tree := by
  simp only [Tree.ofText, hs.scan_spell, Tree.ofTokens]
  rw [Cursor.whole_of_phrase (Cursor.withinCalls_default _) hp hn]
  rfl

theorem ofText_spell_tooDeep (hs : Spellable p.tokens) (hp : p.WellRanked Ranks.level) (hn : 200 < p.nesting) :
    Tree.ofText (String.ofList (spell p.tokens)) = .error (.read .tooDeep) := by
  have hcalls := Cursor.withinCalls_default (p.tokens ++ [.stop])
  obtain ⟨c, hc⟩ := Cursor.whole_of_phrase_tooDeep hcalls hp hn
  simp only [Tree.ofText, hs.scan_spell, Tree.ofTokens, hc]
  rfl

end Phrase

/-- The letters of an expression with values in range are read as the expression, if its groups nest at most 200
deep. If they nest deeper, that is the fault of reading them. -/
theorem ofText_letters {t : Tree} (ht : t.IsExpression) (hv : ∀ v ∈ t.leaves, 0 ≤ v ∧ v ≤ maxValue) :
    ∃ s, t.letters = .ok s ∧ (t.groupDepth ≤ 200 → Tree.ofText s = .ok t) ∧
      (200 < t.groupDepth → Tree.ofText s = .error (.read .tooDeep) ∧
        (Fault.read .tooDeep).report? = some (.misread .parser "Expression nested too deeply")) := by
  obtain ⟨p, rfl⟩ := ht.exists_phrase
  have hs : Spellable p.pruned.tokens := Phrase.spellable_tokens (by rwa [p.tree_pruned])
  refine ⟨_, p.letters_tree, fun hn => ?_, fun hn => ?_⟩
  · rw [Phrase.ofText_spell hs p.wellRanked_pruned (by rwa [p.nesting_pruned]), p.tree_pruned]
  · exact ⟨Phrase.ofText_spell_tooDeep hs p.wellRanked_pruned (by rwa [p.nesting_pruned]), rfl⟩

theorem ofText_letters_limits :
    let t : Tree := .binary (.known .divide) (.binary (.known .subtract) (.number 1) (.number 0))
      (.binary (.known .add) (.number 18446744073709551615) (.number 23))
    let deep : Tree := (List.replicate 202 2).foldr (fun v r => .binary (.known .add) (.number v) r) (.number 1)
    (t.IsExpression ∧ (∀ v ∈ t.leaves, 0 ≤ v ∧ v ≤ maxValue) ∧ t.groupDepth ≤ 200 ∧
      t.letters = .ok "1b0de18446744073709551615a23f" ∧ Tree.ofText "1b0de18446744073709551615a23f" = .ok t) ∧
    deep.IsExpression ∧ (∀ v ∈ deep.leaves, 0 ≤ v ∧ v ≤ maxValue) ∧ 200 < deep.groupDepth ∧
      ∃ s, deep.letters = .ok s ∧ Tree.ofText s = .error (.read .tooDeep) := by
  intro t deep
  constructor
  · have ht : t.IsExpression := .binary _ (.binary _ (.number _) (.number _)) (.binary _ (.number _) (.number _))
    have hv : ∀ v ∈ t.leaves, 0 ≤ v ∧ v ≤ maxValue := by decide
    have hl : t.letters = .ok "1b0de18446744073709551615a23f" := by cbv
    have hd : t.groupDepth ≤ 200 := by decide
    obtain ⟨s, hs, hread, -⟩ := ofText_letters ht hv
    obtain rfl : "1b0de18446744073709551615a23f" = s := Except.ok.inj (hl.symm.trans hs)
    exact ⟨ht, hv, hd, hl, hread hd⟩
  · have hspine : ∀ vs : List Int,
        (vs.foldr (fun v r => Tree.binary (.known .add) (.number v) r) (.number 1)).IsExpression := by
      intro vs
      induction vs with
      | nil => exact .number 1
      | cons v vs ih => exact .binary .add (.number v) ih
    have hv : ∀ v ∈ deep.leaves, 0 ≤ v ∧ v ≤ maxValue := by decide +kernel
    have hd : 200 < deep.groupDepth := by decide +kernel
    obtain ⟨s, hs, -, hread⟩ := ofText_letters (hspine _) hv
    exact ⟨hspine _, hv, hd, s, hs, (hread hd).1⟩

end LetterArithmetic
