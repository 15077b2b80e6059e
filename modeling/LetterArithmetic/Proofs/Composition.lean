import LetterArithmetic.Proofs.Exact

/-!
Texts put together. A text that is an expression can be the left part of an operator as it stands, whatever operators
it has, and the right part as a group. Main statement: the tree and the value of what is put together are made from
those of the parts, left before right.
-/

set_option autoImplicit false

namespace LetterArithmetic

/-- At no place of a text are more than `k` groups open. -/
def NestsWithin (k : Nat) (u : List Char) : Prop := ∀ x, x <+: u → x.count 'e' ≤ x.count 'f' + k

theorem Item.Means.count_opening {i : Item} {t : Token} (hi : i.Proper) (hm : i.Means t) :
    (i.chars.count 'e' : Int) - i.chars.count 'f' = t.opening := by
  cases hm with
  | number digits hl hv =>
    have hnone : ∀ c : Char, c.isDigit = false → digits.count c = 0 := fun c hc =>
      List.count_eq_zero.mpr fun hmem => by simp [hi.2 c hmem] at hc
    simp [chars, hnone 'e' rfl, hnone 'f' rfl, Token.opening]
  | operator op => cases op <;> rfl
  | leftParen => rfl
  | rightParen => rfl

namespace Spells

variable {u v : List Char} {ts us : List Token}

theorem nil : Spells [] [] := ⟨[], ⟨rfl, by simp, .nil⟩, .nil⟩

theorem append_letter {c : Char} {t : Token} (h : Spells u ts) (hm : (Item.single c).Means t) (hc : c.isDigit = false)
    (h' : Spells v us) : Spells (u ++ c :: v) (ts ++ t :: us) := by
  obtain ⟨items, hs, hi⟩ := h
  obtain ⟨others, hs', ho⟩ := h'
  have hsplit := hs.append (hs'.cons_single hc) (Splits.no_cut_before hc u v)
  exact ⟨items ++ .single c :: others, hsplit, List.rel_append hi (.cons hm ho)⟩

theorem append_operator (h : Spells u ts) (op : Operator) (h' : Spells v us) :
    Spells (u ++ op.letter :: v) (ts ++ .operator op :: us) :=
  h.append_letter (.operator op) (by cases op <;> rfl) h'

theorem group (h : Spells u ts) : Spells ('e' :: (u ++ ['f'])) (.leftParen :: (ts ++ [.rightParen])) :=
  nil.append_letter .leftParen rfl (h.append_letter .rightParen rfl nil)

theorem trim_eq (h : Spells u ts) : Text.trim u = u := Text.trim_eq_self fun _ hc => h.not_blank hc

theorem balance_eq (h : Spells u ts) : (u.count 'e' : Int) - u.count 'f' = balance ts := by
  obtain ⟨items, hs, hm⟩ := h
  induction hm generalizing u with
  | nil =>
    obtain rfl : [] = u := hs.text
    rfl
  | @cons i t items ts hi hm ih =>
    have hfirst := hi.count_opening (hs.each i (by simp))
    have hrest := ih hs.tail
    rw [hs.text_cons, List.count_append, List.count_append, balance]
    omega

theorem exists_beginning (h : Spells u (ts ++ us)) : ∃ x, x <+: u ∧ Spells x ts := by
  obtain ⟨items, hs, hm⟩ := h
  refine ⟨(items.take ts.length).flatMap Item.chars, ⟨(items.drop ts.length).flatMap Item.chars, ?_⟩,
    items.take ts.length, ⟨rfl, fun i hi => hs.each i (List.mem_of_mem_take hi), hs.apart.take _⟩, ?_⟩
  · rw [← List.flatMap_append, List.take_append_drop, hs.text]
  · exact List.forall₂_take_append _ _ _ hm

end Spells

namespace Phrase

/-- As many groups as nest in a phrase are open at one place of it. -/
theorem exists_balance_eq_nesting (p : Phrase) : ∃ x y, p.tokens = x ++ y ∧ balance x = p.nesting := by
  induction p with
  | number v => exact ⟨[], [.number v], rfl, rfl⟩
  | group p ih =>
    obtain ⟨x, y, hxy, hx⟩ := ih
    refine ⟨.leftParen :: x, y ++ [.rightParen], by simp [tokens, hxy], ?_⟩
    simp only [balance, Token.opening, hx, nesting]
    omega
  | binary op l r ihl ihr =>
    obtain ⟨x, y, hxy, hx⟩ := ihl
    obtain ⟨z, w, hzw, hz⟩ := ihr
    -- the left part closes all of its groups, so those of the right part are counted from none
    obtain hle | hle := Nat.le_total r.nesting l.nesting
    · refine ⟨x, y ++ .operator op :: r.tokens, by simp [tokens, hxy], ?_⟩
      rw [hx, nesting, Nat.max_eq_left hle]
    · refine ⟨l.tokens ++ .operator op :: z, w, by simp [tokens, hzw], ?_⟩
      rw [balance_append, balance_tokens, balance, hz, nesting, Nat.max_eq_right hle]
      simp [Token.opening]

theorem nesting_le {p : Phrase} {u : List Char} {k : Nat} (h : Spells u p.tokens) (hk : NestsWithin k u) :
    p.nesting ≤ k := by
  obtain ⟨x, y, hxy, hx⟩ := p.exists_balance_eq_nesting
  rw [hxy] at h
  obtain ⟨z, hz, hspells⟩ := h.exists_beginning
  have hopen := hk z hz
  have hbalance := hspells.balance_eq
  omega

end Phrase

theorem Spells.ofText_eq_tree {p : Phrase} {s : String} (h : Spells s.toList p.tokens)
    (hp : p.WellRanked Ranks.level) (hn : p.nesting ≤ 200) : Tree.ofText s = .ok p.tree := by
  refine ofText_eq_ok_iff.mpr ⟨p, rfl, ?_, hp, hn⟩
  rwa [h.trim_eq]

section

variable {digits : List Char}

theorem Text.trim_digits (hd : ∀ c ∈ digits, c.isDigit = true) : trim digits = digits := by
  refine trim_eq_self fun c hc => ?_
  obtain ⟨hlow, hhigh⟩ := visible_of_isDigit (hd c hc)
  exact isBlank_of_visible hlow hhigh

theorem Splits.one_run (hne : digits ≠ []) (hd : ∀ c ∈ digits, c.isDigit = true) : Splits digits [.run digits] :=
  ⟨by simp [Item.chars], fun i hi => by rw [List.mem_singleton.mp hi]; exact ⟨hne, hd⟩, .singleton _⟩

end

theorem spells_digits {n : String} {ts : List Token} (hn : n.toList ≠ []) (hd : ∀ c ∈ n.toList, c.isDigit = true)
    (h : scan n = .ok ts) : Spells n.toList [.number (Nat.ofDigitChars 10 n.toList 0)] := by
  have hrun := Splits.one_run hn hd
  obtain ⟨body, -, items, hs, hm⟩ := scan_eq_ok_iff.mp h
  rw [Text.trim_digits hd] at hs
  obtain rfl := hrun.unique hs
  obtain ⟨hl, hv⟩ := Item.isFine_of_means hm (.run n.toList) (by simp)
  exact ⟨[.run n.toList], hrun, .cons (.number _ hl hv) .nil⟩

theorem calculate_binary {s p q : String} {a b : Tree} {op : Operator} (hs : Tree.ofText s = .ok a)
    (hp : Tree.ofText p = .ok b) (hq : Tree.ofText q = .ok (.binary (.known op) a b)) :
    calculate q = calculate s >>= fun x => calculate p >>= fun y =>
      (op.apply x y).mapError fun f => .evaluation (.arithmetic f) := by
  have hstep : ∀ text t, Tree.ofText text = .ok t → calculate text = t.evaluate.mapError .evaluation := by
    intro text t h
    rw [calculate_eq, h]
    rfl
  rw [hstep s a hs, hstep p b hp, hstep q _ hq, Tree.evaluate_binary]
  obtain ⟨ha, hx⟩ | ⟨f, -, hx⟩ := (Tree.inRange_of_ofText hs).evaluate_cases
  · rw [hx]
    obtain ⟨hb, hy⟩ | ⟨f, -, hy⟩ := (Tree.inRange_of_ofText hp).evaluate_cases
    · have hnode := Sign.apply_known op (ha a a.self_mem_postorder).2 (hb b b.self_mem_postorder).2
      rw [hy]
      show (Sign.apply (.known op) a.exact b.exact).mapError _ = (op.apply a.exact b.exact).mapError _
      rw [hnode]
      cases op.apply a.exact b.exact <;> rfl
    · rw [hy]
      rfl
  · rw [hx]
    rfl

/-- Behind an expression `s`, an operator takes all of `s` as its left part, and a number or a group as its right
part. A group is read as what is in it, if that nests at most 199 groups. The value is made from those of the parts; a
fault on the left counts first, then one on the right, then the operator's. -/
theorem ofText_compose {s t n : String} {a b : Tree} (op : Operator) (hs : Tree.ofText s = .ok a)
    (hs' : Text.trim s.toList = s.toList) (ht : Tree.ofText t = .ok b) (ht' : Text.trim t.toList = t.toList)
    (hdeep : NestsWithin 199 t.toList) (hn : n.toList ≠ []) (hdigits : ∀ c ∈ n.toList, c.isDigit = true)
    (hscan : ∃ ts, scan n = .ok ts) :
    let o := String.singleton op.letter
    let group := "e" ++ t ++ "f"
    Tree.ofText (s ++ o ++ n) = .ok (.binary (.known op) a (.number (Nat.ofDigitChars 10 n.toList 0))) ∧
    Tree.ofText (s ++ o ++ group) = .ok (.binary (.known op) a b) ∧
    Tree.ofText group = .ok b ∧
    ∀ p, p = n ∨ p = group →
      calculate (s ++ o ++ p) = calculate s >>= fun x => calculate p >>= fun y =>
        (op.apply x y).mapError fun f => .evaluation (.arithmetic f) := by
  intro o group
  obtain ⟨ts, hts⟩ := hscan
  obtain ⟨p, rfl, hp, hpr, hpn⟩ := ofText_eq_ok_iff.mp hs
  obtain ⟨q, rfl, hq, hqr, -⟩ := ofText_eq_ok_iff.mp ht
  rw [hs'] at hp
  rw [ht'] at hq
  have hqn : q.nesting ≤ 199 := Phrase.nesting_le hq hdeep
  -- a number or a group binds above the rank of `op`, so all of `s` is on the left of it
  have hread : ∀ (r : Phrase) (u : String), Spells u.toList r.tokens → r.WellRanked Ranks.level →
      r.Binds Ranks.level (3 + 1) → r.nesting ≤ 200 →
      Tree.ofText (s ++ o ++ u) = .ok (.binary (.known op) p.tree r.tree) := by
    intro r u hu hr hbinds hrn
    have hspells : Spells (s ++ o ++ u).toList (Phrase.binary op p r).tokens := by
      simpa [o, Phrase.tokens] using hp.append_operator op hu
    exact hspells.ofText_eq_tree ⟨3, rfl, by decide, p.binds_level, hbinds, hpr, hr⟩ (Nat.max_le.mpr ⟨hpn, hrn⟩)
  have hnumber : Spells n.toList (Phrase.number (Nat.ofDigitChars 10 n.toList 0)).tokens :=
    spells_digits hn hdigits hts
  have hgroup : Spells group.toList (Phrase.group q).tokens := by
    simpa [group, Phrase.tokens] using hq.group
  have hroom : (Phrase.group q).nesting ≤ 200 := Nat.succ_le_succ hqn
  have hone := hnumber.ofText_eq_tree trivial (Nat.zero_le 200)
  have hinner := hgroup.ofText_eq_tree hqr hroom
  have hjoined := hread _ n hnumber trivial trivial (Nat.zero_le 200)
  have hjoined' := hread _ group hgroup hqr trivial hroom
  refine ⟨hjoined, hjoined', hinner, ?_⟩
  rintro r (rfl | rfl)
  · exact calculate_binary hs hone hjoined
  · exact calculate_binary hs hinner hjoined'

theorem ofText_compose_chain :
    let a : Tree := .binary (.known .subtract) (.binary (.known .multiply) (.number 7) (.number 2)) (.number 4)
    let b : Tree := .binary (.known .add) (.number 1) (.number 2)
    Tree.ofText "7c2b4" = .ok a ∧ Tree.ofText "e1fa2" = .ok b ∧ NestsWithin 199 "e1fa2".toList ∧
      Tree.ofText "7c2b4d05" = .ok (.binary (.known .divide) a (.number 5)) ∧
      Tree.ofText "7c2b4dee1fa2f" = .ok (.binary (.known .divide) a b) := by
  intro a b
  have ha : Tree.ofText "7c2b4" = .ok a := rfl
  have hb : Tree.ofText "e1fa2" = .ok b := rfl
  have hdeep : NestsWithin 199 "e1fa2".toList := by
    intro x hx
    have hlen : x.length ≤ 5 := hx.length_le
    have hcount := x.count_le_length (a := 'e')
    omega
  have hdigits : ∀ c ∈ "05".toList, c.isDigit = true := List.all_eq_true.mp (by decide)
  obtain ⟨hnumber, hgroup, -⟩ :=
    ofText_compose (n := "05") .divide ha (by decide) hb (by decide) hdeep (by decide) hdigits ⟨_, rfl⟩
  exact ⟨ha, hb, hdeep, hnumber, hgroup⟩

end LetterArithmetic
