import Mathlib.Data.List.TakeDrop
import ProcLang.Proofs.Grammar.Spelling

/-! # Literals and their texts

The text that spells a literal denotes it, and every literal that a lexeme denotes has a spelling of
the lexeme's kind.
-/

namespace ProcLang

set_option autoImplicit false

namespace Numeral

section Digits

variable {text whole fraction : List Char}

theorem isDigit_of_mem_toDigits {c : Char} {n : Nat} (h : c ∈ Nat.toDigits 10 n) :
    isDigit c = true := by
  have hDigit := Nat.isDigit_of_mem_toDigits (by decide) (by decide) h
  simpa [Char.isDigit, isDigit, Char.le_def] using hDigit

theorem ne_of_isDigit {c d : Char} (h : isDigit c = true) (hOther : isDigit d = false) : c ≠ d := by
  rintro rfl
  rw [h] at hOther
  cases hOther

theorem not_isExponentMark_of_isDigit {c : Char} (h : isDigit c = true) :
    isExponentMark c = false := by
  rw [isExponentMark, Bool.or_eq_false_iff, decide_eq_false_iff_not, decide_eq_false_iff_not]
  exact ⟨ne_of_isDigit h (by decide), ne_of_isDigit h (by decide)⟩

theorem natural_eq_ofDigitChars (text : List Char) : natural text = Nat.ofDigitChars 10 text 0 := by
  simp only [natural, Nat.ofDigitChars_eq_foldl, Nat.mul_comm 10, digitValue]

theorem natural_toDigits (n : Nat) : natural (Nat.toDigits 10 n) = n := by
  rw [natural_eq_ofDigitChars, Nat.ofDigitChars_toDigits (by decide) (by decide)]

theorem natural_zeros_append (n : Int) (digits : List Char) :
    natural (Decimal.zeros n ++ digits) = natural digits := by
  rw [Decimal.zeros]
  induction n.toNat with
  | zero => rfl
  | succ k ih => simpa [List.replicate_succ, natural, digitValue] using ih

theorem ungrouped_of_digits (h : ∀ c ∈ text, isDigit c = true) : ungrouped text = text := by
  refine List.filter_eq_self.mpr fun c hc => ?_
  exact decide_eq_true (ne_of_isDigit (h c hc) (by decide))

theorem unsigned?_of_digits (h : ∀ c ∈ text, isDigit c = true) (hText : text ≠ []) :
    unsigned? text = some (natural text) := by
  obtain ⟨c, rest, rfl⟩ := List.exists_cons_of_ne_nil hText
  have hAll : (c :: rest).all (fun c => isDigit c || c = '_') = true :=
    List.all_eq_true.mpr fun d hd => by simp [h d hd]
  rw [unsigned?, List.head?_cons, Option.any_some, h c List.mem_cons_self, hAll,
    ungrouped_of_digits h]
  rfl

theorem integer?_of_digits (h : ∀ c ∈ text, isDigit c = true) (hText : text ≠ []) :
    integer? text = some (natural text : Int) := by
  have hUnsigned := unsigned?_of_digits h hText
  unfold integer?
  split
  · exact absurd (h '-' List.mem_cons_self) (by decide)
  · exact absurd (h '+' List.mem_cons_self) (by decide)
  · rw [hUnsigned]
    rfl

theorem span_of_forall {α : Type} {p : α → Bool} {front rest : List α}
    (hFront : ∀ a ∈ front, p a = true) (hRest : ∀ a ∈ rest.head?, p a = false) : (front ++ rest).span p = (front, rest) := by
  rw [List.span_eq_takeWhile_dropWhile, List.takeWhile_append_of_pos hFront,
    List.dropWhile_append_of_pos hFront]
  cases rest with
  | nil => simp
  | cons a rest => simp [hRest a rfl]

theorem decimal?_of_digits (hWhole : ∀ c ∈ whole, isDigit c = true) (hSome : whole ≠ [])
    (hFraction : ∀ c ∈ fraction, isDigit c = true) :
    decimal? (whole ++ '.' :: fraction) =
      if Decimal.scaleFits fraction.length then
        some ⟨natural (whole ++ fraction), fraction.length⟩
      else none := by
  have hMantissa : (whole ++ '.' :: fraction).span (fun c => !isExponentMark c) =
      (whole ++ '.' :: fraction, []) := by
    have hNoMark : ∀ c ∈ whole ++ '.' :: fraction, (!isExponentMark c) = true := by
      intro c hc
      rw [Bool.not_eq_true']
      rcases List.mem_append.mp hc with hc | hc
      · exact not_isExponentMark_of_isDigit (hWhole c hc)
      rcases List.mem_cons.mp hc with rfl | hc
      · decide
      · exact not_isExponentMark_of_isDigit (hFraction c hc)
    have hSpan : ((whole ++ '.' :: fraction) ++ []).span (fun c => !isExponentMark c) =
        (whole ++ '.' :: fraction, []) := span_of_forall hNoMark (by simp)
    rwa [List.append_nil] at hSpan
  have hPlaces : places (whole ++ '.' :: fraction) = (whole ++ fraction, fraction.length) := by
    have hPoint : ∀ c ∈ whole, decide (c ≠ '.') = true := by
      intro c hc
      exact decide_eq_true (ne_of_isDigit (hWhole c hc) (by decide))
    rw [places, span_of_forall hPoint (by simp)]
    simp only [ungrouped_of_digits hFraction]
  have hDigits : ∀ c ∈ whole ++ fraction, isDigit c = true := by
    intro c hc
    rcases List.mem_append.mp hc with hc | hc
    · exact hWhole c hc
    · exact hFraction c hc
  have hInteger := integer?_of_digits hDigits (by simp [hSome])
  have hExponent : exponent? [] = some 0 := rfl
  unfold decimal?
  rw [hMantissa]
  dsimp only
  rw [hPlaces, hExponent, Option.bind_eq_bind, Option.bind_some, hInteger, Option.bind_some,
    Int.sub_zero]

end Digits

/-- A point splits digits in two. -/
theorem exists_of_withPoint {digits : List Char} {scale : Int}
    (hDigits : ∀ c ∈ digits, isDigit c = true) (hSome : digits ≠ []) (hScale : 1 ≤ scale) :
    ∃ whole fraction, Decimal.withPoint digits scale = whole ++ '.' :: fraction ∧ whole ≠ [] ∧
      (∀ c ∈ whole ++ fraction, isDigit c = true) ∧ fraction.length = scale ∧
      natural (whole ++ fraction) = natural digits := by
  unfold Decimal.withPoint
  rw [if_neg (by omega)]
  split
  · refine ⟨digits.take (digits.length - scale.toNat), digits.drop (digits.length - scale.toNat), rfl,
      ?_, ?_, ?_, ?_⟩
    · rw [ne_eq, List.take_eq_nil_iff, not_or]
      exact ⟨by omega, hSome⟩
    · rwa [List.take_append_drop]
    · rw [List.length_drop]
      omega
    · rw [List.take_append_drop]
  · have hZeros : ∀ c ∈ Decimal.zeros (scale - digits.length), isDigit c = true := by
      intro c hc
      rw [List.eq_of_mem_replicate hc]
      decide
    refine ⟨['0'], Decimal.zeros (scale - digits.length) ++ digits, rfl, by simp, ?_, ?_, ?_⟩
    · intro c hc
      rcases List.mem_append.mp hc with hc | hc
      · rw [List.mem_singleton.mp hc]
        decide
      rcases List.mem_append.mp hc with hc | hc
      · exact hZeros c hc
      · exact hDigits c hc
    · rw [List.length_append, Decimal.zeros, List.length_replicate]
      omega
    · have hZero := natural_zeros_append 1 (Decimal.zeros (scale - digits.length) ++ digits)
      exact hZero.trans (natural_zeros_append _ digits)

end Numeral

namespace Literal

theorem body?_enquote (quote : Char) (text : List Char) :
    body? quote (enquote quote text).toList = some (text.flatMap escape) := by
  simp [enquote, body?]

theorem decodeBody_escape_append (c : Char) (rest : List Char) :
    decodeBody (escape c ++ rest) = (decodeBody rest).map (c :: ·) := by
  unfold escape
  split
  · rfl
  · rfl
  · rfl
  · rfl
  · rfl
  · rfl
  · rfl
  · rename_i hPlain
    exact decodeBody.eq_4 c rest (fun hc => absurd hc hPlain) fun _ _ hc => absurd hc hPlain

theorem decodeBody_flatMap_escape (text : List Char) :
    decodeBody (text.flatMap escape) = .ok text := by
  induction text with
  | nil => rfl
  | cons c text ih =>
    rw [List.flatMap_cons, decodeBody_escape_append, ih]
    rfl

theorem decode_enquote (quote : Char) (text : List Char) :
    decode quote (enquote quote text) = .ok text := by
  rw [decode, body?_enquote]
  exact decodeBody_flatMap_escape text

/-- Whether literals can be spelled: numbers have no sign, and decimals have a point. The scales that
can be stored have 64 bits. -/
def isWritable : Literal → Bool
  | integer n => 0 ≤ n
  | decimal d => 0 ≤ d.unscaled && 1 ≤ d.scale && Decimal.scaleFits d.scale
  | nil | boolean _ | character _ | string _ => true

theorem ofText_integer (n : Nat) : ofText .integer (toString n) = .ok (.integer n) := by
  have hInteger : Numeral.integer? (Nat.toDigits 10 n) = some (n : Int) := by
    rw [Numeral.integer?_of_digits (fun c => Numeral.isDigit_of_mem_toDigits) Nat.toDigits_ne_nil,
      Numeral.natural_toDigits]
  simp only [ofText, Nat.toString_eq_ofList_toDigits, String.toList_ofList, hInteger]

theorem ofText_decimal {d : Decimal} (hUnscaled : 0 ≤ d.unscaled) (hScale : 1 ≤ d.scale)
    (hFits : Decimal.scaleFits d.scale = true) :
    ofText (spell (.decimal d)).kind (spell (.decimal d)).text = .ok (.decimal d) := by
  obtain ⟨whole, fraction, hText, hWhole, hDigits, hLength, hNatural⟩ := Numeral.exists_of_withPoint
    (fun c => Numeral.isDigit_of_mem_toDigits) (Nat.toDigits_ne_nil (n := d.unscaled.natAbs)) hScale
  have hDecimal := Numeral.decimal?_of_digits
    (fun c hc => hDigits c (List.mem_append_left fraction hc)) hWhole
    (fun c hc => hDigits c (List.mem_append_right whole hc))
  rw [hLength, if_pos hFits, hNatural, Numeral.natural_toDigits, Int.natAbs_of_nonneg hUnscaled,
    ← hText] at hDecimal
  simp only [spell, ofText, String.toList_ofList, hDecimal]

/-- What is spelled with a token of a kind of its own is read back from it. -/
theorem ofText_spell {value : Literal} (h : value.isWritable = true)
    (hKind : value.spell.kind ≠ .identifier) :
    ofText value.spell.kind value.spell.text = .ok value := by
  cases value with
  | nil => exact absurd rfl hKind
  | boolean b => cases b <;> exact absurd rfl hKind
  | integer n =>
    obtain ⟨n, rfl⟩ := Int.eq_ofNat_of_zero_le (of_decide_eq_true h)
    exact ofText_integer n
  | decimal d =>
    simp only [isWritable, Bool.and_eq_true, decide_eq_true_eq] at h
    exact ofText_decimal h.1.1 h.1.2 h.2
  | character c => simp [spell, ofText, decode_enquote]
  | string s => simp [spell, ofText, decode_enquote, Except.map]

theorem exists_of_ofText_integer {text : String} {value : Literal}
    (h : ofText .integer text = .ok value) :
    ∃ n, Numeral.integer? text.toList = some n ∧ value = .integer n := by
  simp only [ofText] at h
  split at h
  · cases h
  · rename_i n hInteger
    cases h
    exact ⟨n, hInteger, rfl⟩

theorem exists_of_ofText_decimal {text : String} {value : Literal}
    (h : ofText .decimal text = .ok value) :
    ∃ d, Numeral.decimal? text.toList = some d ∧ value = .decimal d := by
  simp only [ofText] at h
  split at h
  · cases h
  · rename_i d hDecimal
    cases h
    exact ⟨d, hDecimal, rfl⟩

theorem isWritable_decimal {unscaled places : Nat} (hPlaces : 0 < places)
    (hFits : Decimal.scaleFits places = true) : isWritable (.decimal ⟨unscaled, places⟩) = true := by
  have hUnscaled : (0 : Int) ≤ unscaled := Int.natCast_nonneg unscaled
  have hScale : (1 : Int) ≤ places := by omega
  simp only [isWritable, hUnscaled, hScale, decide_true, Bool.true_and]
  exact hFits

theorem isWritable_of_ofText {l : Lexeme} {value : Literal} (hFormed : l.Formed)
    (h : ofText l.kind l.text = .ok value) :
    value.isWritable = true ∧ value.spell.kind = l.kind := by
  obtain ⟨kind, text⟩ := l
  cases kind with
  | identifier | operator => cases h
  | integer =>
    obtain ⟨n, hInteger, rfl⟩ := exists_of_ofText_integer h
    have hSome : text.toList ≠ [] := by
      obtain ⟨c, rest, hText, -⟩ := hFormed.kind_mem
      exact hText ▸ List.cons_ne_nil c rest
    rw [Numeral.integer?_of_digits (hFormed.integer rfl) hSome] at hInteger
    cases hInteger
    exact ⟨decide_eq_true (Int.natCast_nonneg (Numeral.natural text.toList)), rfl⟩
  | decimal =>
    obtain ⟨d, hDecimal, rfl⟩ := exists_of_ofText_decimal h
    obtain ⟨whole, fraction, hText, hWhole, hFraction, hDigits⟩ := hFormed.decimal rfl
    rw [hText, Numeral.decimal?_of_digits (fun c hc => hDigits c (List.mem_append_left fraction hc))
      hWhole (fun c hc => hDigits c (List.mem_append_right whole hc))] at hDecimal
    obtain ⟨hFits, hd⟩ := Option.ite_none_right_eq_some.mp hDecimal
    cases hd
    exact ⟨isWritable_decimal (List.length_pos_iff.mpr hFraction) hFits, rfl⟩
  | character =>
    simp only [ofText] at h
    split at h
    · cases h
    · cases h
      exact ⟨rfl, rfl⟩
    · cases h
  | string =>
    simp only [ofText] at h
    cases hDecode : decode '"' text with
    | error error =>
      rw [hDecode] at h
      cases h
    | ok decoded =>
      rw [hDecode] at h
      cases h
      exact ⟨rfl, rfl⟩

end Literal

end ProcLang
