import LetterArithmetic.Proofs.Grouping
import LetterArithmetic.Proofs.Interchange
import LetterArithmetic.Proofs.Layout

/-!
Answers with sections. Main statement: where all that is to be shown can be printed, the sections that are asked for
stand in front of the answer that is given without them, and change neither that answer nor the exit status, whatever
comes of a picture or of an object.
-/

set_option autoImplicit false

namespace LetterArithmetic

namespace Output

variable {out : Output} {s s' : String}

@[simp] theorem takes_unlimited (s : String) : unlimited.takes s = true := by
  simp [takes, unlimited]

theorem takes_append : out.takes (s ++ s') = true ↔ out.takes s = true ∧ out.takes s' = true := by
  simp [takes, List.all_append]

theorem takes_of_join {ss : List String} (h : out.takes (String.join ss) = true) : ∀ s ∈ ss, out.takes s = true := by
  intro s hs
  simp only [takes, String.toList_join, List.all_eq_true, List.mem_flatMap] at h ⊢
  exact fun c hc => h c ⟨s, hs, hc⟩

end Output

namespace Phrase

theorem two_mul_height_lt_length_tokens (p : Phrase) : 2 * p.tree.height < p.tokens.length := by
  induction p with
  | number v => exact Nat.one_pos
  | group p ih =>
    rw [tokens, tree, List.length_cons, List.length_append]
    omega
  | binary op l r ihl ihr =>
    rw [tokens, tree, Tree.height, List.length_append, List.length_cons]
    omega

end Phrase

theorem Spells.length_le {u : List Char} {ts : List Token} (h : Spells u ts) : ts.length ≤ u.length := by
  have hspell : ts.length ≤ (spell ts).length := by
    have hspelling := fun t (ht : t ∈ ts) => Token.spelling_ne_nil (h.hasSpelling ht)
    clear h
    induction ts with
    | nil => exact Nat.zero_le _
    | cons t ts ih =>
      have hpos := List.length_pos_iff.mpr (hspelling t List.mem_cons_self)
      have hrest := ih fun t ht => hspelling t (List.mem_cons_of_mem _ ht)
      rw [spell_cons, List.length_append, List.length_cons]
      omega
  exact Nat.le_trans hspell h.length_spell_le.1

theorem Text.length_trim_le (s : List Char) : (trim s).length ≤ s.length := by
  rw [trim, List.length_reverse]
  refine Nat.le_trans (List.dropWhile_suffix _).length_le ?_
  rw [List.length_reverse]
  exact (List.dropWhile_suffix _).length_le

section

variable {text : String} {t : Tree} {ts : List Token}

theorem Tree.fits_of_ofText (hsize : text.length < 9223372036854775808) (h : Tree.ofText text = .ok t) : t.Fits 0 := by
  have hrange := Tree.inRange_of_ofText h
  obtain ⟨p, rfl, hspells, -, -⟩ := ofText_eq_ok_iff.mp h
  have hheight := p.two_mul_height_lt_length_tokens
  have hlength := hspells.length_le
  have htrim := Text.length_trim_le text.toList
  rw [String.length_toList] at htrim
  exact ⟨by decide, by omega, fun v hv => isWritable_of_range (hrange.leaves v hv)⟩

theorem Token.exists_text_of_scan (h : scan text = .ok ts) {t : Token} (ht : t ∈ ts) : ∃ s, t.text = .ok s := by
  obtain ⟨s, hs⟩ | ⟨v, rfl, hlong, -⟩ := t.shownAs_or_long
  · exact ⟨s, hs.text_eq⟩
  · obtain ⟨body, rfl, hspells⟩ := scan_eq_ok_iff.mp h
    have hmem : .number v ∈ body := by simpa using ht
    cases hlong.symm.trans (isWritable_of_range (hspells.hasSpelling hmem))

end

namespace Section

def Written (sections : List (Except AnswerFault Section)) : Prop := ∀ s ∈ sections, ∃ written, s = .ok written

namespace Written

variable {sections more : List (Except AnswerFault Section)}

theorem nil : Written [] := nofun

theorem singleton (s : Section) : Written [.ok s] := fun _ hs => ⟨s, List.mem_singleton.mp hs⟩

theorem append (h : Written sections) (h' : Written more) : Written (sections ++ more) :=
  fun s hs => (List.mem_append.mp hs).elim (h s) (h' s)

theorem asked (h : Written sections) (wanted : Bool) : Written (if wanted then sections else []) := by
  cases wanted with
  | false => exact nil
  | true => exact h

theorem exists_eq_map (h : Written sections) : ∃ written : List Section, sections = written.map .ok := by
  induction sections with
  | nil => exact ⟨[], rfl⟩
  | cons s sections ih =>
    obtain ⟨first, rfl⟩ := h s List.mem_cons_self
    obtain ⟨others, rfl⟩ := ih fun s hs => h s (List.mem_cons_of_mem _ hs)
    exact ⟨first :: others, rfl⟩

end Written

theorem written_tokens {text : String} {ts : List Token} (h : scan text = .ok ts) : Written (tokens ts) := by
  have hlines : Written ((ts.take 50).mapIdx tokenLine) := by
    intro line hline
    obtain ⟨i, hi, rfl⟩ := List.mem_mapIdx.mp hline
    obtain ⟨s, hs⟩ := Token.exists_text_of_scan h (List.mem_of_mem_take (List.getElem_mem hi))
    exact ⟨_, by rw [tokenLine, hs]⟩
  refine (Written.singleton _).append (hlines.append ?_)
  split
  · exact .singleton _
  · exact .nil

variable {t : Tree}

theorem written_outline (ht : t.Fits 0) : Written (outline t) := by
  unfold outline
  rw [ht.outline_eq]
  exact (Written.singleton _).append (.singleton _)

theorem written_grouping (ht : t.IsExpression) : Written [grouping t] := by
  unfold grouping
  rw [ht.grouping_eq]
  exact .singleton _

theorem written_json (device : Device) (ht : t.IsExpression) : Written [json device t] := by
  unfold json
  rw [ht.encode_eq]
  exact .singleton _

theorem written_ofTree (out : Output) (device : Device) (display : Display) (title : String) (hfits : t.Fits 0)
    (ht : t.IsExpression) : Written (ofTree out device display title t) := by
  have houtline := (written_outline hfits).asked display.outline
  have hgrouping := (written_grouping ht).asked display.grouping
  have hjson := (written_json device ht).asked display.json
  refine ((houtline.append hgrouping).append hjson).append ?_
  cases display.picture with
  | none => exact .nil
  | some path =>
    dsimp only
    split
    · exact .nil
    · exact .singleton _

section

variable {out : Output} {device : Device} {display : Display}

theorem picture_eq {path title : String} {format : Option String}
    (h : out.takes (picture .unlimited device path format title t).text = true) :
    picture out device path format title t = picture .unlimited device path format title t := by
  unfold picture at h ⊢
  cases hdrawing : t.drawing title with
  | error f => rfl
  | ok statements =>
    cases hrender : device.render ⟨path, format, statements⟩ with
    | some fault => simp only [hrender]
    | none =>
      simp only [hdrawing, hrender, Output.takes_unlimited, if_true] at h ⊢
      rw [if_pos h]

theorem ofTree_eq {title : String}
    (h : ∀ s, .ok s ∈ ofTree .unlimited device display title t → out.takes s.text = true) :
    ofTree out device display title t = ofTree .unlimited device display title t := by
  unfold ofTree at h ⊢
  cases hpicture : display.picture with
  | none => rfl
  | some path =>
    by_cases hpath : path = ""
    · simp only [if_pos hpath]
    · simp only [if_neg hpath, hpicture] at h ⊢
      rw [picture_eq (h _ (List.mem_append_right _ List.mem_cons_self))]

end

end Section

namespace Answer

variable {out : Output} {a : Answer}

theorem behind_map_ok {sections : List Section} (h : ∀ s ∈ sections, out.takes s.text = true) :
    a.behind out (sections.map .ok) = ⟨a.exit, String.join (sections.map Section.text) ++ a.output,
      sections.flatMap Section.pictures ++ a.pictures⟩ := by
  induction sections with
  | nil => simp [behind]
  | cons s sections ih =>
    have hs := h s List.mem_cons_self
    simp [behind, hs, ih fun s hs => h s (List.mem_cons_of_mem _ hs), String.append_assoc]

@[simp] theorem ofFault_unlimited (f : AnswerFault) : ofFault .unlimited f = ⟨1, f.line ++ "\n", []⟩ := by
  simp [ofFault]

@[simp] theorem ofValue_unlimited_ok (v : Int) :
    ofValue .unlimited (.ok v) = ⟨0, "Result: " ++ v.repr ++ "\n", []⟩ := by
  simp [ofValue]

@[simp] theorem ofValue_unlimited_error (f : Fault) : ofValue .unlimited (.error f) = ⟨1, f.line ++ "\n", []⟩ :=
  ofFault_unlimited _

theorem ofFault_eq {f : AnswerFault} (h : out.takes (ofFault .unlimited f).output = true) :
    ofFault out f = ofFault .unlimited f := by
  rw [ofFault_unlimited] at h ⊢
  rw [ofFault, if_pos h]

theorem ofValue_eq {result : Except Fault Int} (h : out.takes (ofValue .unlimited result).output = true) :
    ofValue out result = ofValue .unlimited result := by
  cases result with
  | ok v =>
    rw [ofValue_unlimited_ok] at h ⊢
    exact if_pos h
  | error f => exact ofFault_eq h

end Answer

def Section.ofText (out : Output) (device : Device) (display : Display) (text : String) :
    List (Except AnswerFault Section) :=
  match scan text with
  | .error _ => []
  | .ok ts =>
    (if display.tokens then Section.tokens ts else []) ++
      match Tree.ofTokens {} ts with
      | .error _ => []
      | .ok t => Section.ofTree out device display (String.ofList (Text.trim text.toList)) t

theorem answerOn_eq_behind (out : Output) (device : Device) (display : Display) (text : String) :
    answerOn out device display text =
      (Answer.ofValue out (calculate text)).behind out (Section.ofText out device display text) := by
  unfold answerOn calculate Section.ofText
  cases scan text with
  | error f => rfl
  | ok ts =>
    dsimp only
    cases Tree.ofTokens {} ts with
    | error f => rw [List.append_nil]; rfl
    | ok t => rfl

section

variable {out : Output} {device : Device} {display : Display} {text : String}

theorem Section.written_ofText (out : Output) (device : Device) (display : Display)
    (hsize : text.length < 9223372036854775808) : Written (ofText out device display text) := by
  unfold ofText
  cases hs : scan text with
  | error f => exact .nil
  | ok ts =>
    refine ((written_tokens hs).asked display.tokens).append ?_
    cases ht : Tree.ofTokens {} ts with
    | error f => exact .nil
    | ok t =>
      have hread : Tree.ofText text = .ok t := by
        simp only [Tree.ofText, hs, ht]
        rfl
      exact written_ofTree out device display _ (Tree.fits_of_ofText hsize hread)
        (Tree.inRange_of_ofText hread).expression

theorem Section.ofText_eq (h : ∀ s, .ok s ∈ ofText .unlimited device display text → out.takes s.text = true) :
    ofText out device display text = ofText .unlimited device display text := by
  unfold ofText at h ⊢
  cases hs : scan text with
  | error f => rfl
  | ok ts =>
    simp only [hs] at h ⊢
    cases ht : Tree.ofTokens {} ts with
    | error f => rfl
    | ok t =>
      simp only [ht] at h ⊢
      rw [ofTree_eq fun s hs => h s (List.mem_append_right _ hs)]

theorem answer_plain (device : Device) (format : Option String) (text : String) :
    answerOn out device { format := format } text = .ofValue out (calculate text) := by
  have hnone : Section.ofText out device { format := format } text = [] := by
    unfold Section.ofText
    cases scan text with
    | error f => rfl
    | ok ts =>
      dsimp only
      cases Tree.ofTokens {} ts <;> rfl
  rw [answerOn_eq_behind, hnone]
  rfl

/-- Where all that is to be shown can be printed, there are sections in front of the last line and nothing else. -/
theorem exists_sections (hsize : text.length < 9223372036854775808)
    (hshown : out.takes (answer device display text).output = true) :
    ∃ sections : List Section, Section.ofText out device display text = sections.map .ok ∧
      Answer.ofValue out (calculate text) = .ofValue .unlimited (calculate text) ∧
      answerOn out device display text =
        ⟨(Answer.ofValue out (calculate text)).exit,
          String.join (sections.map Section.text) ++ (Answer.ofValue out (calculate text)).output,
          sections.flatMap Section.pictures ++ (Answer.ofValue out (calculate text)).pictures⟩ := by
  obtain ⟨sections, hsections⟩ :=
    (Section.written_ofText .unlimited device display hsize).exists_eq_map
  rw [answer, answerOn_eq_behind, hsections, Answer.behind_map_ok fun _ _ => Output.takes_unlimited _,
    Output.takes_append] at hshown
  -- what is to be shown holds all of the sections, so each of them can be printed
  have htaken : ∀ s ∈ sections, out.takes s.text = true :=
    fun s hs => Output.takes_of_join hshown.1 _ (List.mem_map_of_mem hs)
  have hsame : Section.ofText out device display text = sections.map .ok := by
    rw [← hsections]
    refine Section.ofText_eq fun s hs => ?_
    rw [hsections] at hs
    obtain ⟨s', hs', heq⟩ := List.mem_map.mp hs
    exact Except.ok.inj heq ▸ htaken s' hs'
  refine ⟨sections, hsame, Answer.ofValue_eq hshown.2, ?_⟩
  rw [answerOn_eq_behind, hsame, Answer.behind_map_ok htaken]

end

end LetterArithmetic
