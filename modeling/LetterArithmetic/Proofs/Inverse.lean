import LetterArithmetic.Proofs.Texts

/-!
The scanner and its inverse. Records are written as the letters of their kinds and the digits of their values. Main
statement: the scanner gives exactly the lists of records that have no value out of place or out of range, no two
numbers side by side and one end, at the end; it takes what is written for such a list back to the list, and what is
written for a list that it gives is the text without the zeros in front of its numbers.
-/

set_option autoImplicit false

namespace LetterArithmetic

namespace TokenRecord

def spelling (r : TokenRecord) : List Char :=
  match r.kind with
  | .plus => ['a']
  | .minus => ['b']
  | .star => ['c']
  | .slash => ['d']
  | .leftParen => ['e']
  | .rightParen => ['f']
  | .number => r.value.elim [] fun v => v.repr.toList
  | .stop => []

def written (rs : List TokenRecord) : String := String.ofList (rs.flatMap spelling)

structure IsBody (rs : List TokenRecord) : Prop where
  noStop : ∀ r ∈ rs, r.kind ≠ .stop
  noValue : ∀ r ∈ rs, r.kind ≠ .number → r.value = none
  inRange : ∀ r ∈ rs, r.kind = .number → ∃ v ∈ r.value, 0 ≤ v ∧ v ≤ maxValue
  apart : rs.IsChain fun r r' => r.kind = .number → r'.kind ≠ .number

end TokenRecord

def scanRecords (s : String) : Except ScanFault (List TokenRecord) := (scan s).map (List.map Token.toRecord)

/-- Digits without the zeros in front of them. Of zeros alone, one is left. -/
def withoutZeros (digits : List Char) : List Char :=
  match digits.dropWhile fun c => c == '0' with
  | [] => ['0']
  | c :: r => c :: r

def Item.plain : Item → List Char
  | run digits => withoutZeros digits
  | single c => [c]

section

variable {c : Char} {digits : List Char}

theorem toDigits_ofDigitChars_cons (hc : c ≠ '0') (hd : ∀ d ∈ c :: digits, d.isDigit = true) :
    Nat.toDigits 10 (Nat.ofDigitChars 10 (c :: digits) 0) = c :: digits := by
  have hfirst : 0 < c.toNat - '0'.toNat :=
    Nat.pos_of_ne_zero fun hzero => hc (eq_of_toNat_sub_eq (hd c (by simp)) rfl hzero)
  -- the value reaches the power of ten that takes as many digits as the run has
  have hlow : 10 ^ digits.length ≤ Nat.ofDigitChars 10 (c :: digits) 0 := by
    rw [ofDigitChars_cons_zero]
    exact Nat.le_add_right_of_le (Nat.le_mul_of_pos_right _ hfirst)
  have hshort : (Nat.toDigits 10 (Nat.ofDigitChars 10 (c :: digits) 0)).length ≤ (c :: digits).length :=
    (Nat.length_toDigits_le_iff (by decide) (Nat.succ_pos _)).mpr (ofDigitChars_lt_pow hd)
  have hlong : digits.length < (Nat.toDigits 10 (Nat.ofDigitChars 10 (c :: digits) 0)).length := by
    obtain hnone | hsome := Nat.eq_zero_or_pos digits.length
    · rw [hnone]
      exact List.length_pos_iff.mpr Nat.toDigits_ne_nil
    · have hiff := Nat.length_toDigits_le_iff (n := Nat.ofDigitChars 10 (c :: digits) 0) (by decide : 1 < 10) hsome
      omega
  exact eq_of_ofDigitChars_eq (isDigit_of_mem_toDigits _) hd (Nat.le_antisymm hshort hlong)
    Nat.ofDigitChars_ten_toDigits

theorem toDigits_ofDigitChars (hne : digits ≠ []) (hd : ∀ c ∈ digits, c.isDigit = true) :
    Nat.toDigits 10 (Nat.ofDigitChars 10 digits 0) = withoutZeros digits := by
  induction digits with
  | nil => exact absurd rfl hne
  | cons c digits ih =>
    by_cases hc : c = '0'
    · subst hc
      cases digits with
      | nil => rfl
      | cons d digits =>
        have hrest := ih (List.cons_ne_nil d digits) fun x hx => hd x (List.mem_cons_of_mem _ hx)
        rw [ofDigitChars_cons_zero, Nat.sub_self, Nat.mul_zero, Nat.zero_add, hrest]
        rfl
    · rw [toDigits_ofDigitChars_cons hc hd]
      simp [withoutZeros, hc]

end

theorem Item.Means.spelling_eq_plain {i : Item} {t : Token} (hi : i.Proper) (hm : i.Means t) :
    t.spelling = i.plain := by
  cases hm with
  | number digits hl hv => rw [Token.spelling_natCast, plain, toDigits_ofDigitChars hi.1 hi.2]
  | _ => rfl

namespace Spells

variable {u : List Char} {ts : List Token}

theorem spellable (h : Spells u ts) : Spellable ts := by
  refine ⟨fun t ht => h.hasSpelling ht, ?_⟩
  obtain ⟨items, hs, hm⟩ := h
  exact (List.isChain_append.mp (hs.apart_tokens hm)).1

/-- Written again, the tokens that a text spells are its items, each in its plain form. -/
theorem spell_eq_plain {items : List Item} (h : Spells u ts) (hs : Splits u items) :
    spell ts = items.flatMap Item.plain := by
  obtain ⟨other, hs', hm⟩ := h
  obtain rfl := hs.unique hs'
  clear hs
  induction hm generalizing u with
  | nil => rfl
  | @cons i t items ts hi hm ih =>
    rw [spell_cons, List.flatMap_cons, hi.spelling_eq_plain (hs'.each i (by simp)), ih hs'.tail]

end Spells

namespace Token

theorem kind_toRecord (t : Token) : t.toRecord.kind = t.kind := by cases t <;> rfl

theorem spelling_toRecord (t : Token) : t.toRecord.spelling = t.spelling := by
  cases t with
  | operator op => cases op <;> rfl
  | _ => rfl

theorem written_map_toRecord (ts : List Token) :
    TokenRecord.written (ts.map toRecord) = String.ofList (spell ts) := by
  simp only [TokenRecord.written, List.flatMap_map, spelling_toRecord]
  rfl

end Token

theorem Token.hasSpelling_iff {t : Token} :
    t.HasSpelling ↔
      t.toRecord.kind ≠ .stop ∧ (t.toRecord.kind ≠ .number → t.toRecord.value = none) ∧
        (t.toRecord.kind = .number → ∃ v ∈ t.toRecord.value, 0 ≤ v ∧ v ≤ maxValue) := by
  cases t with
  | number v => simp [HasSpelling, toRecord]
  | operator op => cases op <;> simp [HasSpelling, toRecord, kind, Operator.tokenKind]
  | _ => simp [HasSpelling, toRecord, kind]

namespace TokenRecord

theorem exists_token {r : TokenRecord} (hvalue : r.kind ≠ .number → r.value = none)
    (hnumber : r.kind = .number → ∃ v, r.value = some v) : ∃ t : Token, t.toRecord = r := by
  obtain ⟨kind, value⟩ := r
  by_cases hkind : kind = .number
  · subst hkind
    obtain ⟨v, rfl⟩ := hnumber rfl
    exact ⟨.number v, rfl⟩
  · obtain rfl : value = none := hvalue hkind
    cases kind with
    | number => exact absurd rfl hkind
    | plus => exact ⟨.operator .add, rfl⟩
    | minus => exact ⟨.operator .subtract, rfl⟩
    | star => exact ⟨.operator .multiply, rfl⟩
    | slash => exact ⟨.operator .divide, rfl⟩
    | leftParen => exact ⟨.leftParen, rfl⟩
    | rightParen => exact ⟨.rightParen, rfl⟩
    | stop => exact ⟨.stop, rfl⟩

theorem isBody_map_toRecord {ts : List Token} : IsBody (ts.map Token.toRecord) ↔ Spellable ts := by
  have hapart : ((ts.map Token.toRecord).IsChain fun r r' => r.kind = .number → r'.kind ≠ .number) ↔
      ts.IsChain Token.Apart := by
    simp only [List.isChain_map, Token.kind_toRecord]
    rfl
  constructor
  · intro h
    refine ⟨fun t ht => Token.hasSpelling_iff.mpr ?_, hapart.mp h.apart⟩
    have hmem := List.mem_map_of_mem (f := Token.toRecord) ht
    exact ⟨h.noStop _ hmem, h.noValue _ hmem, h.inRange _ hmem⟩
  · intro h
    have heach : ∀ r ∈ ts.map Token.toRecord, r.kind ≠ .stop ∧ (r.kind ≠ .number → r.value = none) ∧
        (r.kind = .number → ∃ v ∈ r.value, 0 ≤ v ∧ v ≤ maxValue) :=
      List.forall_mem_map.mpr fun t ht => Token.hasSpelling_iff.mp (h.each t ht)
    exact ⟨fun r hr => (heach r hr).1, fun r hr => (heach r hr).2.1, fun r hr => (heach r hr).2.2, hapart.mpr h.apart⟩

theorem isBody_iff {rs : List TokenRecord} : IsBody rs ↔ ∃ ts, rs = ts.map Token.toRecord ∧ Spellable ts := by
  refine ⟨fun h => ?_, ?_⟩
  · have heach : ∀ r ∈ rs, r ∈ Set.range Token.toRecord := fun r hr =>
      exists_token (h.noValue r hr) fun hkind => (h.inRange r hr hkind).imp fun _ hv => hv.1
    obtain ⟨ts, rfl⟩ : rs ∈ Set.range (List.map Token.toRecord) := by rwa [Set.range_list_map]
    exact ⟨ts, rfl, isBody_map_toRecord.mp h⟩
  · rintro ⟨ts, rfl, h⟩
    exact isBody_map_toRecord.mpr h

end TokenRecord

theorem scanRecords_eq_ok_iff {s : String} {rs : List TokenRecord} :
    scanRecords s = .ok rs ↔
      ∃ ts, rs = ts.map Token.toRecord ++ [⟨.stop, none⟩] ∧ Spells (Text.trim s.toList) ts := by
  constructor
  · intro h
    unfold scanRecords at h
    cases hscan : scan s with
    | error f => rw [hscan] at h; cases h
    | ok all =>
      obtain ⟨ts, rfl, hspells⟩ := scan_eq_ok_iff.mp hscan
      rw [hscan] at h
      exact ⟨ts, (Except.ok.inj h).symm.trans List.map_append, hspells⟩
  · rintro ⟨ts, rfl, hspells⟩
    rw [scanRecords, scan_eq_ok_iff.mpr ⟨ts, rfl, hspells⟩]
    exact congrArg Except.ok (List.map_append)

/-- A list of records is what some text is scanned to, if and only if it is a body in front of one end: no end in it, no
value but of a number, values in range, and no two numbers side by side. Such a list is what its own writing is scanned
to. And what a text is scanned to is written as the text without the blanks around it and without the zeros in front of
its runs of digits. -/
theorem scanRecords_inverse :
    (∀ rs, (∃ s, scanRecords s = .ok rs) ↔ ∃ body, rs = body ++ [⟨.stop, none⟩] ∧ TokenRecord.IsBody body) ∧
    (∀ body, TokenRecord.IsBody body →
      scanRecords (TokenRecord.written (body ++ [⟨.stop, none⟩])) = .ok (body ++ [⟨.stop, none⟩])) ∧
    ∀ s, ∃ items : List Item, (∀ other, Splits (Text.trim s.toList) other ↔ other = items) ∧
      ∀ rs, scanRecords s = .ok rs → (TokenRecord.written rs).toList = items.flatMap Item.plain := by
  have hwrite : ∀ ts : List Token, TokenRecord.written (ts.map Token.toRecord ++ [⟨.stop, none⟩]) =
      String.ofList (spell ts) := by
    intro ts
    rw [← Token.written_map_toRecord]
    simp [TokenRecord.written, TokenRecord.spelling]
  have hread : ∀ body, TokenRecord.IsBody body →
      scanRecords (TokenRecord.written (body ++ [⟨.stop, none⟩])) = .ok (body ++ [⟨.stop, none⟩]) := by
    intro body h
    obtain ⟨ts, rfl, hts⟩ := TokenRecord.isBody_iff.mp h
    rw [hwrite, scanRecords, hts.scan_spell]
    exact congrArg Except.ok List.map_append
  refine ⟨fun rs => ⟨?_, ?_⟩, hread, fun s => ?_⟩
  · rintro ⟨s, h⟩
    obtain ⟨ts, rfl, hspells⟩ := scanRecords_eq_ok_iff.mp h
    exact ⟨_, rfl, TokenRecord.isBody_map_toRecord.mpr hspells.spellable⟩
  · rintro ⟨body, rfl, h⟩
    exact ⟨_, hread body h⟩
  · obtain ⟨items, h⟩ := Splits.exists_split (Text.trim s.toList)
    refine ⟨items, fun other => ⟨h.unique, fun ho => ho ▸ h⟩, fun rs hrs => ?_⟩
    obtain ⟨ts, rfl, hspells⟩ := scanRecords_eq_ok_iff.mp hrs
    rw [hwrite, String.toList_ofList, hspells.spell_eq_plain h]

theorem scanRecords_inverse_zeros :
    let body : List TokenRecord := [⟨.number, some 0⟩, ⟨.plus, none⟩, ⟨.number, some 70⟩, ⟨.rightParen, none⟩]
    let rs := body ++ [⟨.stop, none⟩]
    scanRecords "\t00a0070f \n" = .ok rs ∧ TokenRecord.IsBody body ∧
      TokenRecord.written rs = "0a70f" ∧ scanRecords "0a70f" = .ok rs ∧
      ¬∃ s, scanRecords s = .ok [⟨.number, some 1⟩, ⟨.number, some 2⟩, ⟨.stop, none⟩] := by
  intro body rs
  have hscan : scanRecords "\t00a0070f \n" = .ok rs := rfl
  obtain ⟨himage, hread, hwrite⟩ := scanRecords_inverse
  obtain ⟨other, hother, hbody⟩ := (himage rs).mp ⟨_, hscan⟩
  obtain rfl : body = other := List.append_cancel_right hother
  obtain ⟨items, hitems, hplain⟩ := hwrite "\t00a0070f \n"
  obtain rfl := (hitems [.run "00".toList, .single 'a', .run "0070".toList, .single 'f']).mp (by decide)
  have hwritten : TokenRecord.written rs = "0a70f" := by
    refine String.toList_injective ((hplain rs hscan).trans ?_)
    decide
  have hagain := hread body hbody
  rw [hwritten] at hagain
  refine ⟨hscan, hbody, hwritten, hagain, fun hpair => ?_⟩
  obtain ⟨pair, hpair, hpairs⟩ := (himage _).mp hpair
  obtain rfl : [⟨.number, some 1⟩, ⟨.number, some 2⟩] = pair := List.append_cancel_right hpair
  exact absurd rfl (hpairs.apart.rel rfl)

end LetterArithmetic
