import LetterArithmetic.Proofs.Items
import LetterArithmetic.Proofs.Trimming

/-!
Texts scanned in parts. A cut between two digits splits a run, and any other cut leaves the items of a text as they
are. Main statement: where no run is cut, the tokens of a text are those of its first part in front of those of the
second, and a fault of the first part comes before one of the second; blanks around a text are not seen.
-/

set_option autoImplicit false

namespace LetterArithmetic

section

variable {u v : String} {items others : List Item}

theorem scan_congr (h : Text.trim u.toList = Text.trim v.toList) : scan u = scan v := by
  simp only [scan, Scanner.ofText, h]

theorem scan_behind_means {ts : List Token} (hm : List.Forall₂ Item.Means items ts)
    (h : Splits (Text.trim u.toList) (items ++ others)) (h' : Splits (Text.trim v.toList) others) :
    scan u = (scan v).map (ts ++ ·) := by
  rcases h'.scan_cases with ⟨us, hm', hscan⟩ | ⟨before, i, rest, f, rfl, hfine, hf, hscan⟩
  · rw [hscan, h.scan_means (List.rel_append hm hm'), List.append_assoc]
    rfl
  · have hbefore : ∀ j ∈ items ++ before, j.IsFine := by
      intro j hj
      rcases List.mem_append.mp hj with hj | hj
      · exact Item.isFine_of_means hm j hj
      · exact hfine j hj
    rw [← List.append_assoc] at h
    rw [hscan, h.scan_refused hbefore hf]
    rfl

/-- Two trimmed texts put together so that no run of digits is cut are scanned one behind the other: the tokens of the
first come in front of what the second gives, tokens or a fault, and a fault of the first is the fault of both. Whatever
a text is, blanks at its ends do not change what it is scanned to. -/
theorem scan_append (hu : Text.trim u.toList = u.toList) (hv : Text.trim v.toList = v.toList)
    (hcut : ∀ c ∈ u.toList.getLast?, ∀ d ∈ v.toList.head?, c.isDigit = true → d.isDigit = false) :
    (∀ ts, scan u = .ok ts → ∃ body, ts = body ++ [.stop] ∧ scan (u ++ v) = (scan v).map (body ++ ·)) ∧
    (∀ f, scan u = .error f → scan (u ++ v) = .error f) ∧
    ∀ before s after : String, (∀ c ∈ before.toList, Text.isBlank c = true) →
      (∀ c ∈ after.toList, Text.isBlank c = true) → scan (before ++ s ++ after) = scan s := by
  obtain ⟨items, hitems⟩ := Splits.exists_split u.toList
  obtain ⟨others, hothers⟩ := Splits.exists_split v.toList
  have hsplit : Splits (Text.trim (u ++ v).toList) (items ++ others) := by
    rw [String.toList_append, Text.trim_append hu hv]
    exact hitems.append hothers hcut
  rw [← hu] at hitems
  rw [← hv] at hothers
  refine ⟨fun ts hts => ?_, fun f hf => ?_, fun before s after hbefore hafter => scan_congr ?_⟩
  · rcases hitems.scan_cases with ⟨body, hm, hscan⟩ | ⟨_, _, _, f, -, -, -, hscan⟩
    · exact ⟨body, Except.ok.inj (hts.symm.trans hscan), scan_behind_means hm hsplit hothers⟩
    · cases hts.symm.trans hscan
  · rcases hitems.scan_cases with ⟨body, -, hscan⟩ | ⟨start, i, rest, f', rfl, hfine, hf', hscan⟩
    · cases hf.symm.trans hscan
    · obtain rfl : f = f' := Except.error.inj (hf.symm.trans hscan)
      rw [List.append_assoc, List.cons_append] at hsplit
      exact hsplit.scan_refused hfine hf'
  · rw [String.toList_append, String.toList_append, Text.trim_append_blank _ hafter, Text.trim_blank_append hbefore]

end

theorem scan_append_behind_digits :
    scan "3a12" = .ok [.number 3, .operator .add, .number 12, .stop] ∧
    scan ("3a12" ++ "c07") = .ok [.number 3, .operator .add, .number 12, .operator .multiply, .number 7, .stop] ∧
    scan ("3a12" ++ "e4 5") = .error (.unrecognized ' ') ∧
    scan ("e4 5" ++ "a6") = .error (.unrecognized ' ') ∧
    scan ("\t" ++ "e4 5" ++ " \n") = .error (.unrecognized ' ') := by
  have hfirst : scan "3a12" = .ok ([.number 3, .operator .add, .number 12] ++ [.stop]) := rfl
  have hfault : scan "e4 5" = .error (.unrecognized ' ') := rfl
  have htab : ∀ c ∈ "\t".toList, Text.isBlank c = true := List.all_eq_true.mp (by decide)
  have hline : ∀ c ∈ " \n".toList, Text.isBlank c = true := List.all_eq_true.mp (by decide)
  obtain ⟨hfine, -⟩ := scan_append (u := "3a12") (v := "c07") (by decide) (by decide) (Splits.no_cut_before rfl _ _)
  obtain ⟨hrefused, -⟩ := scan_append (u := "3a12") (v := "e4 5") (by decide) (by decide) (Splits.no_cut_before rfl _ _)
  obtain ⟨-, hkept, hblanks⟩ :=
    scan_append (u := "e4 5") (v := "a6") (by decide) (by decide) (Splits.no_cut_before rfl _ _)
  obtain ⟨body, hbody, hfine⟩ := hfine _ hfirst
  obtain ⟨body', hbody', hrefused⟩ := hrefused _ hfirst
  obtain rfl := List.append_cancel_right hbody
  obtain rfl := List.append_cancel_right hbody'
  exact ⟨rfl, hfine, hrefused, hkept _ hfault, (hblanks "\t" "e4 5" " \n" htab hline).trans hfault⟩

end LetterArithmetic
