import LetterArithmetic.Proofs.Texts

/-!
Letters as a canonical form. Leaving out the groups that reading from the left does not need makes a phrase shorter
and its groups no deeper. Main statement: of the texts of one tree, the letters are the shortest, and no other text is
as short.
-/

set_option autoImplicit false

namespace LetterArithmetic

namespace Phrase

/-- The phrases that group from the left: what stands on the right of an operator is a number or has a mark. -/
inductive FromLeft : Phrase → Prop where
  | number (v : Int) : FromLeft (.number v)
  | group {p : Phrase} (inner : FromLeft p) : FromLeft (.group p)
  | binaryNumber (op : Operator) {l : Phrase} (v : Int) (left : FromLeft l) : FromLeft (.binary op l (.number v))
  | binaryGroup (op : Operator) {l q : Phrase} (left : FromLeft l) (right : FromLeft q) :
      FromLeft (.binary op l (.group q))

theorem WellRanked.fromLeft {p : Phrase} (hp : p.WellRanked Ranks.level) : p.FromLeft := by
  induction p with
  | number v => exact .number v
  | group p ih => exact .group (ih hp)
  | binary op l r ihl ihr =>
    obtain ⟨k, hk, -, -, hbinds, hl, hr⟩ := hp
    cases r with
    | number v => exact .binaryNumber op v (ihl hl)
    | group q =>
      cases ihr hr with
      | group inner => exact .binaryGroup op (ihl hl) inner
    | binary o l' r' =>
      -- its operator would have to rank above the one in front of it
      obtain ⟨k', hk', hlt⟩ := hbinds
      cases hk
      cases hk'
      omega

def width (p : Phrase) : Nat := (spell p.tokens).length

@[simp] theorem width_group (p : Phrase) : (group p).width = p.width + 2 := by
  simp [width, tokens, Token.spelling]

@[simp] theorem width_binary (op : Operator) (l r : Phrase) : (binary op l r).width = l.width + r.width + 1 := by
  simp [width, tokens, Token.spelling]
  omega

theorem nesting_grouped_le (p : Phrase) : p.grouped.nesting ≤ p.nesting + 1 := by
  cases p with
  | binary op l r => exact Nat.le_refl _
  | _ => exact Nat.le_succ _

theorem width_grouped (p : Phrase) :
    p.grouped.width ≤ p.width + 2 ∧ (p.grouped.width = p.width + 2 → p.grouped = group p) := by
  cases p with
  | binary op l r => exact ⟨Nat.le_of_eq (width_group _), fun _ => rfl⟩
  | _ =>
    refine ⟨Nat.le_add_right _ 2, fun h => ?_⟩
    simp only [grouped] at h
    omega

variable {p : Phrase}

theorem FromLeft.nesting_pruned_le (h : p.FromLeft) : p.pruned.nesting ≤ p.nesting := by
  induction h with
  | number v => exact Nat.le_refl _
  | group inner ih => exact Nat.le_succ_of_le ih
  | binaryNumber op v left ih => exact max_le_max ih (Nat.le_refl _)
  | @binaryGroup op l q left right ihl ihq =>
    have hq := Nat.le_trans q.pruned.nesting_grouped_le (Nat.succ_le_succ ihq)
    exact max_le_max ihl hq

/-- Pruning saves characters wherever it changes a phrase. -/
theorem FromLeft.width_pruned_le (h : p.FromLeft) :
    p.pruned.width ≤ p.width ∧ (p.pruned.width = p.width → p.pruned = p) := by
  induction h with
  | number v => exact ⟨Nat.le_refl _, fun _ => rfl⟩
  | @group p inner ih =>
    have hle := ih.1
    simp only [pruned, width_group]
    refine ⟨by omega, fun hw => ?_⟩
    omega
  | @binaryNumber op l v left ih =>
    obtain ⟨hle, heq⟩ := ih
    simp only [pruned, grouped, width_binary]
    refine ⟨by omega, fun hw => ?_⟩
    rw [heq (by omega)]
  | @binaryGroup op l q left right ihl ihq =>
    obtain ⟨hle, heq⟩ := ihl
    obtain ⟨hle', heq'⟩ := ihq
    obtain ⟨hgrouped, hmark⟩ := q.pruned.width_grouped
    simp only [pruned, width_binary, width_group]
    refine ⟨by omega, fun hw => ?_⟩
    -- nothing is saved, so neither part is changed and the mark stays
    rw [heq (by omega), hmark (by omega), heq' (by omega)]

end Phrase

/-- The letters of a tree that is read from a text are read as the tree. They are no longer than the text, and as
long only if they are the text. -/
theorem letters_shortest {s : String} {t : Tree} (h : Tree.ofText s = .ok t) :
    ∃ letters, t.letters = .ok letters ∧ Tree.ofText letters = .ok t ∧
      letters.length ≤ (Text.trim s.toList).length ∧
      (letters.length = (Text.trim s.toList).length → Text.trim s.toList = letters.toList) := by
  obtain ⟨p, rfl, hspells, hranked, hnesting⟩ := ofText_eq_ok_iff.mp h
  have hleft := hranked.fromLeft
  have hvalues : ∀ v ∈ p.pruned.tree.leaves, 0 ≤ v ∧ v ≤ maxValue := by
    rw [p.tree_pruned]
    exact Phrase.leaves_of_spells hspells
  have hread := Phrase.ofText_spell (Phrase.spellable_tokens hvalues) p.wellRanked_pruned
    (Nat.le_trans hleft.nesting_pruned_le hnesting)
  rw [p.tree_pruned] at hread
  obtain ⟨hprune, hpruned⟩ := hleft.width_pruned_le
  obtain ⟨hzeros, hexact⟩ := hspells.length_spell_le
  refine ⟨_, p.letters_tree, hread, ?_, fun hlen => ?_⟩
  · rw [String.length_ofList]
    exact Nat.le_trans hprune hzeros
  · rw [String.length_ofList] at hlen
    have hwidth : p.pruned.width = p.width := Nat.le_antisymm hprune (Nat.le_trans hzeros (Nat.le_of_eq hlen.symm))
    rw [String.toList_ofList, hpruned hwidth]
    exact hexact (hwidth.symm.trans hlen)

theorem letters_shortest_padded :
    let t : Tree := .binary (.known .subtract) (.number 12) (.binary (.known .multiply) (.number 3) (.number 4))
    Tree.ofText " e12be03c4ff\n" = .ok t ∧ t.letters = .ok "12be3c4f" ∧ Tree.ofText "12be3c4f" = .ok t ∧
      (Text.trim " e12be03c4ff\n".toList).length = 11 ∧ "12be3c4f".length = 8 := by
  intro t
  have hread : Tree.ofText " e12be03c4ff\n" = .ok t := rfl
  have hletters : t.letters = .ok "12be3c4f" := by cbv
  obtain ⟨letters, h, hagain, -⟩ := letters_shortest hread
  obtain rfl : "12be3c4f" = letters := Except.ok.inj (hletters.symm.trans h)
  exact ⟨hread, hletters, hagain, by decide, by decide⟩

end LetterArithmetic
