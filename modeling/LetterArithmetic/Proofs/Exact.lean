import LetterArithmetic.Proofs.Texts
import LetterArithmetic.Tree.Encoding

/-!
Checked arithmetic against exact arithmetic. A tree has an exact value in unbounded integers, and a node is sound if
it divides by no zero and its exact value fits into 64 bits. Main statement: a tree has its exact value if all its
nodes are sound, and otherwise the fault of the first one, in post-order, that is not.
-/

set_option autoImplicit false

namespace LetterArithmetic

/-- The operators on unbounded integers. Division rounds toward the floor; nothing is made of a division by zero. -/
def Operator.exact : Operator → Int → Int → Int
  | add, l, r => l + r
  | subtract, l, r => l - r
  | multiply, l, r => l * r
  | divide, l, r => l.fdiv r

namespace Tree

def exact : Tree → Int
  | number v => v
  | binary (.known op) l r => op.exact l.exact r.exact
  | binary (.unknown _) _ _ | bare _ => 0

def postorder : Tree → List Tree
  | number v => [number v]
  | bare k => [bare k]
  | binary s l r => l.postorder ++ r.postorder ++ [binary s l r]

def divisor? : Tree → Option Int
  | binary (.known .divide) _ r => some r.exact
  | _ => none

/-- A node that divides by no zero and stays within 64 bits without sign. -/
def Sound (u : Tree) : Prop := u.divisor? ≠ some 0 ∧ 0 ≤ u.exact ∧ u.exact ≤ maxValue

instance (u : Tree) : Decidable u.Sound :=
  inferInstanceAs (Decidable (u.divisor? ≠ some 0 ∧ 0 ≤ u.exact ∧ u.exact ≤ maxValue))

/-- The fault of a node by itself, told with the exact values of its parts. -/
inductive Fails : Tree → ArithmeticFault → Prop where
  | underflow (l r : Tree) (h : l.exact < r.exact) :
      Fails (.binary (.known .subtract) l r) (.underflow l.exact r.exact)
  | divisionByZero (l r : Tree) (h : r.exact = 0) : Fails (.binary (.known .divide) l r) (.divisionByZero l.exact)
  | sum (l r : Tree) (h : maxValue < l.exact + r.exact) :
      Fails (.binary (.known .add) l r) (.overflow .add l.exact r.exact)
  | product (l r : Tree) (h : maxValue < l.exact * r.exact) :
      Fails (.binary (.known .multiply) l r) (.overflow .multiply l.exact r.exact)

def FirstFault (nodes : List Tree) (f : ArithmeticFault) : Prop :=
  ∃ before u after, nodes = before ++ u :: after ∧ (∀ w ∈ before, w.Sound) ∧ u.Fails f

structure InRange (t : Tree) : Prop where
  expression : t.IsExpression
  leaves : ∀ v ∈ t.leaves, 0 ≤ v ∧ v ≤ maxValue

@[simp] theorem evaluate_number (v : Int) : (number v).evaluate = .ok v := by
  rw [evaluate, fold_eq_recurse]
  rfl

theorem evaluate_binary (s : Sign) (l r : Tree) :
    (binary s l r).evaluate = l.evaluate >>= fun a => r.evaluate >>= fun b => s.apply a b := by
  simp only [evaluate, fold_eq_recurse]
  rfl

theorem self_mem_postorder (t : Tree) : t ∈ t.postorder := by
  cases t <;> simp [postorder]

end Tree

theorem isWritable_of_range {n : Int} (h : 0 ≤ n ∧ n ≤ maxValue) : Text.isWritable n = true := by
  have hmax : maxValue < 10 ^ 20 := by decide
  have hdigits : 10 ^ 20 ≤ 10 ^ maxDigits := Nat.pow_le_pow_right (by decide) (by decide)
  have hn : n.natAbs ≤ maxValue := by omega
  simp only [Text.isWritable, Nat.pow_eq, decide_eq_true_eq]
  omega

theorem Operator.apply_cases (op : Operator) {l r : Tree} (hl : 0 ≤ l.exact ∧ l.exact ≤ maxValue)
    (hr : 0 ≤ r.exact ∧ r.exact ≤ maxValue) :
    ((Tree.binary (.known op) l r).Sound ∧ op.apply l.exact r.exact = .ok (op.exact l.exact r.exact)) ∨
      ∃ f, (Tree.binary (.known op) l r).Fails f ∧ op.apply l.exact r.exact = .error f := by
  cases op with
  | add =>
    by_cases hbig : maxValue < l.exact + r.exact
    · exact .inr ⟨_, .sum l r hbig, if_pos hbig⟩
    · refine .inl ⟨⟨by simp [Tree.divisor?], ?_⟩, if_neg hbig⟩
      simp only [Tree.exact, exact]
      omega
  | subtract =>
    by_cases hneg : l.exact < r.exact
    · exact .inr ⟨_, .underflow l r hneg, if_pos hneg⟩
    · refine .inl ⟨⟨by simp [Tree.divisor?], ?_⟩, if_neg hneg⟩
      simp only [Tree.exact, exact]
      omega
  | multiply =>
    by_cases hbig : maxValue < l.exact * r.exact
    · exact .inr ⟨_, .product l r hbig, if_pos hbig⟩
    · refine .inl ⟨⟨by simp [Tree.divisor?], ?_⟩, if_neg hbig⟩
      have hpos := Int.mul_nonneg hl.1 hr.1
      simp only [Tree.exact, exact]
      omega
  | divide =>
    by_cases hzero : r.exact = 0
    · exact .inr ⟨_, .divisionByZero l r hzero, if_pos hzero⟩
    · refine .inl ⟨⟨by simpa [Tree.divisor?] using hzero, ?_⟩, if_neg hzero⟩
      -- a quotient of values that are not below zero is not above the dividend
      have hpos := Int.fdiv_nonneg hl.1 hr.1
      have hle := Int.ediv_le_self r.exact hl.1
      rw [← Int.fdiv_eq_ediv_of_nonneg _ hr.1] at hle
      simp only [Tree.exact, exact]
      omega

theorem Sign.apply_known (op : Operator) {l r : Int} (hl : 0 ≤ l ∧ l ≤ maxValue) (hr : 0 ≤ r ∧ r ≤ maxValue) :
    Sign.apply (.known op) l r = (op.apply l r).mapError .arithmetic := by
  have hl' := isWritable_of_range hl
  have hr' := isWritable_of_range hr
  have hnodes := op.apply_cases (show 0 ≤ (Tree.number l).exact ∧ (Tree.number l).exact ≤ maxValue from hl)
    (show 0 ≤ (Tree.number r).exact ∧ (Tree.number r).exact ≤ maxValue from hr)
  obtain ⟨-, happly⟩ | ⟨f, hf, happly⟩ := hnodes
  · simp only [Tree.exact] at happly
    rw [Sign.apply, happly]
    rfl
  · simp only [Tree.exact] at happly
    have htold : f.told = .arithmetic f := by
      cases hf <;> simp [ArithmeticFault.told, ArithmeticFault.operands, Tree.exact, hl', hr']
    rw [Sign.apply, happly]
    exact congrArg Except.error htold

namespace Tree

variable {t u : Tree} {f : ArithmeticFault}

theorem Fails.unique {f' : ArithmeticFault} (h : u.Fails f) (h' : u.Fails f') : f = f' := by
  cases h <;> cases h' <;> rfl

theorem Fails.not_sound (h : u.Fails f) : ¬u.Sound := by
  rintro ⟨hdivisor, hlow, hhigh⟩
  cases h with
  | underflow l r h =>
    simp only [exact, Operator.exact] at hlow
    omega
  | divisionByZero l r h => exact hdivisor (congrArg some h)
  | sum l r h =>
    simp only [exact, Operator.exact] at hhigh
    omega
  | product l r h =>
    simp only [exact, Operator.exact] at hhigh
    omega

namespace FirstFault

variable {nodes more : List Tree}

theorem append_left (h : FirstFault nodes f) (more : List Tree) : FirstFault (nodes ++ more) f := by
  obtain ⟨before, u, after, rfl, hbefore, hf⟩ := h
  exact ⟨before, u, after ++ more, by simp, hbefore, hf⟩

theorem append_right (hsound : ∀ w ∈ nodes, w.Sound) (h : FirstFault more f) : FirstFault (nodes ++ more) f := by
  obtain ⟨before, u, after, rfl, hbefore, hf⟩ := h
  refine ⟨nodes ++ before, u, after, by simp, fun w hw => ?_, hf⟩
  obtain hw | hw := List.mem_append.mp hw
  · exact hsound w hw
  · exact hbefore w hw

theorem find? (h : FirstFault nodes f) : ∃ u, nodes.find? (fun w => ¬w.Sound) = some u ∧ u.Fails f := by
  obtain ⟨before, u, after, rfl, hbefore, hf⟩ := h
  refine ⟨u, List.find?_eq_some_iff_append.mpr ⟨?_, before, after, rfl, ?_⟩, hf⟩
  · simpa using hf.not_sound
  · simpa using hbefore

theorem unique {f' : ArithmeticFault} (h : FirstFault nodes f) (h' : FirstFault nodes f') : f = f' := by
  obtain ⟨u, hu, hf⟩ := h.find?
  obtain ⟨u', hu', hf'⟩ := h'.find?
  obtain rfl : u = u' := Option.some.inj (hu.symm.trans hu')
  exact hf.unique hf'

theorem not_all_sound (h : FirstFault nodes f) : ¬∀ w ∈ nodes, w.Sound := by
  obtain ⟨before, u, after, rfl, -, hf⟩ := h
  exact fun hall => hf.not_sound (hall u (by simp))

end FirstFault

theorem InRange.evaluate_cases (ht : t.InRange) :
    ((∀ u ∈ t.postorder, u.Sound) ∧ t.evaluate = .ok t.exact) ∨
      ∃ f, FirstFault t.postorder f ∧ t.evaluate = .error (.arithmetic f) := by
  obtain ⟨hexpr, hleaves⟩ := ht
  induction hexpr with
  | number v =>
    have hv := hleaves v (List.mem_singleton_self v)
    refine .inl ⟨fun u hu => ?_, evaluate_number v⟩
    obtain rfl := List.mem_singleton.mp hu
    exact ⟨by simp [divisor?], hv⟩
  | @binary op l r _ _ ihl ihr =>
    have hl := ihl fun v hv => hleaves v (List.mem_append_left _ hv)
    have hr := ihr fun v hv => hleaves v (List.mem_append_right _ hv)
    rw [postorder, List.append_assoc, evaluate_binary]
    obtain ⟨hsl, hl⟩ | ⟨f, hf, hl⟩ := hl
    · rw [hl]
      obtain ⟨hsr, hr⟩ | ⟨f, hf, hr⟩ := hr
      · rw [hr]
        have hrl := (hsl l l.self_mem_postorder).2
        have hrr := (hsr r r.self_mem_postorder).2
        have hnode : (Except.ok l.exact >>= fun a => Except.ok r.exact >>= fun b => Sign.apply (.known op) a b) =
            (op.apply l.exact r.exact).mapError .arithmetic := Sign.apply_known op hrl hrr
        rw [hnode]
        obtain ⟨hsound, happly⟩ | ⟨f, hf, happly⟩ := op.apply_cases hrl hrr
        · refine .inl ⟨fun u hu => ?_, by rw [happly]; rfl⟩
          simp only [List.mem_append, List.mem_singleton] at hu
          obtain hu | hu | rfl := hu
          · exact hsl u hu
          · exact hsr u hu
          · exact hsound
        · exact .inr ⟨f, .append_right hsl (.append_right hsr ⟨[], _, [], rfl, by simp, hf⟩), by rw [happly]; rfl⟩
      · exact .inr ⟨f, .append_right hsl (hf.append_left _), by rw [hr]; rfl⟩
    · exact .inr ⟨f, hf.append_left _, by rw [hl]; rfl⟩

end Tree

theorem Tree.inRange_of_ofText {s : String} {t : Tree} (h : Tree.ofText s = .ok t) : t.InRange := by
  obtain ⟨p, rfl, hspells, -, -⟩ := ofText_eq_ok_iff.mp h
  exact ⟨p.isExpression_tree, Phrase.leaves_of_spells hspells⟩

theorem Tree.InRange.binary {l r : Tree} (op : Operator) (hl : l.InRange) (hr : r.InRange) :
    (Tree.binary (.known op) l r).InRange := by
  refine ⟨.binary op hl.expression hr.expression, fun v hv => ?_⟩
  obtain hv | hv := List.mem_append.mp hv
  · exact hl.leaves v hv
  · exact hr.leaves v hv

namespace Json

theorem decodeNumber_inRange {j : Json} {n : Int} (h : j.decodeNumber = .ok n) : (Tree.number n).InRange := by
  refine ⟨.number n, fun v hv => ?_⟩
  obtain rfl := List.mem_singleton.mp hv
  cases j with
  | int m =>
    simp only [decodeNumber] at h
    split at h
    · cases h
      assumption
    · cases h
  | _ => cases h

theorem decodeTasks_inRange {tasks : List Task} {done : List Tree} {t : Tree} (hdone : ∀ u ∈ done, u.InRange)
    (h : decodeTasks tasks done = .ok t) : t.InRange := by
  fun_induction decodeTasks tasks done with
  | case1 u =>
    obtain rfl : u = t := Except.ok.inj h
    exact hdone u (by simp)
  | case3 fields tasks done _ n hn ih =>
    refine ih (fun u hu => ?_) h
    obtain rfl | hu := List.mem_cons.mp hu
    · exact decodeNumber_inRange hn
    · exact hdone u hu
  | case5 fields tasks done _ ih => exact ih hdone h
  | case8 operator tasks right left done op _ ih =>
    refine ih (fun u hu => ?_) h
    obtain rfl | hu := List.mem_cons.mp hu
    · exact .binary op (hdone left (by simp)) (hdone right (by simp))
    · exact hdone u (by simp [hu])
  | case2 | case4 | case6 | case7 | case9 | case10 => cases h

end Json

/-- A tree in range has a value if and only if no node divides by zero and all exact values fit, and then the value is
the exact one. Otherwise it has the fault of its first node, in post-order, where this fails. All trees that are read,
from a text or from an object, are in range. -/
theorem evaluate_exact {t : Tree} (ht : t.InRange) :
    (∀ v, t.evaluate = .ok v ↔
      ((∀ u ∈ t.postorder, u.divisor? ≠ some 0 ∧ 0 ≤ u.exact ∧ u.exact ≤ maxValue) ∧ v = t.exact)) ∧
    (∀ v, t.evaluate = .ok v → 0 ≤ v ∧ v ≤ maxValue) ∧
    (∀ e, t.evaluate = .error e ↔ ∃ f, e = .arithmetic f ∧
      ∃ before u after, t.postorder = before ++ u :: after ∧ (∀ w ∈ before, w.Sound) ∧ u.Fails f) ∧
    (∀ s u, Tree.ofText s = .ok u → u.InRange) ∧
    (∀ j u, Json.decode j = .ok u → u.InRange) ∧
    (∀ l r, (EvaluationFault.arithmetic (.underflow l r)).report? =
      some (.arithmetic .underflow (l.repr ++ " - " ++ r.repr ++ " is below zero"))) ∧
    (∀ l, (EvaluationFault.arithmetic (.divisionByZero l)).report? =
      some (.arithmetic .divisionByZero (l.repr ++ " / 0 divides by zero"))) ∧
    ∀ op l r, (EvaluationFault.arithmetic (.overflow op l r)).report? = some (.arithmetic .overflow
      (l.repr ++ " " ++ String.singleton op.symbol ++ " " ++ r.repr ++ " does not fit in 64 bits")) := by
  have hcases := ht.evaluate_cases
  refine ⟨fun v => ⟨fun hok => ?_, ?_⟩, fun v hok => ?_, fun e => ⟨fun herror => ?_, ?_⟩,
    fun _ _ => Tree.inRange_of_ofText, fun _ _ => Json.decodeTasks_inRange (by simp), fun _ _ => rfl, fun _ => rfl,
    fun _ _ _ => rfl⟩
  · obtain ⟨hsound, hvalue⟩ | ⟨f, -, hfault⟩ := hcases
    · exact ⟨hsound, Except.ok.inj (hok.symm.trans hvalue)⟩
    · rw [hfault] at hok
      cases hok
  · rintro ⟨hsound, rfl⟩
    obtain ⟨-, hvalue⟩ | ⟨f, hf, -⟩ := hcases
    · exact hvalue
    · exact absurd hsound hf.not_all_sound
  · obtain ⟨hsound, hvalue⟩ | ⟨f, -, hfault⟩ := hcases
    · obtain rfl : t.exact = v := Except.ok.inj (hvalue.symm.trans hok)
      exact (hsound t t.self_mem_postorder).2
    · rw [hfault] at hok
      cases hok
  · obtain ⟨-, hvalue⟩ | ⟨f, hf, hfault⟩ := hcases
    · rw [hvalue] at herror
      cases herror
    · exact ⟨f, Except.error.inj (herror.symm.trans hfault), hf⟩
  · rintro ⟨f, rfl, hf⟩
    obtain ⟨hsound, -⟩ | ⟨f', hf', hfault⟩ := hcases
    · exact absurd hsound (Tree.FirstFault.not_all_sound hf)
    · rw [hfault, hf'.unique hf]

theorem evaluate_exact_limits :
    let greatest : Tree := .binary (.known .add) (.number 18446744073709551614) (.number 1)
    let beyond : Tree := .binary (.known .subtract)
      (.binary (.known .divide) (.number 7) (.binary (.known .subtract) (.number 2) (.number 2)))
      (.binary (.known .multiply) greatest greatest)
    (greatest.InRange ∧ greatest.evaluate = .ok 18446744073709551615) ∧
      beyond.InRange ∧ beyond.evaluate = .error (.arithmetic (.divisionByZero 7)) := by
  intro greatest beyond
  have hgreatest : greatest.InRange := ⟨.binary _ (.number _) (.number _), by decide⟩
  have hbeyond : beyond.InRange :=
    ⟨.binary _ (.binary _ (.number _) (.binary _ (.number _) (.number _)))
      (.binary _ hgreatest.expression hgreatest.expression), by decide⟩
  refine ⟨⟨hgreatest, ((evaluate_exact hgreatest).1 _).mpr ⟨by decide, rfl⟩⟩, hbeyond, ?_⟩
  refine ((evaluate_exact hbeyond).2.2.1 _).mpr
    ⟨_, rfl, beyond.postorder.take 4, _, beyond.postorder.drop 5, rfl, by decide, .divisionByZero _ _ rfl⟩

end LetterArithmetic
