import Mathlib
import PocketBasic.Program.Value
import PocketBasic.Proofs.Text.Pieces

/-!
# What a typed line means

A typed line is read without the blanks around it. A text in quotes is that text, whatever it holds. Any
other line is the number that it spells, and NaN if it spells none. Digits spell the number that they are in
base ten.
-/

namespace PocketBasic

namespace Text

variable {before cs behind : List Char}

theorem trimChars_between_blanks (hbefore : ∀ c ∈ before, isBlank c = true)
    (hbehind : ∀ c ∈ behind, isBlank c = true) : trimChars (before ++ cs ++ behind) = trimChars cs := by
  have hfront : (before ++ (cs ++ behind)).dropWhile isBlank = (cs ++ behind).dropWhile isBlank :=
    List.dropWhile_append_of_pos hbefore
  have hback : ∀ c ∈ behind.reverse, isBlank c = true := fun c hc => hbehind c (List.mem_reverse.mp hc)
  rw [trimChars_eq_rdropWhile, trimChars_eq_rdropWhile, List.append_assoc, hfront, List.dropWhile_append]
  split
  · next hblank => rw [List.dropWhile_eq_nil_iff.mpr hbehind, List.isEmpty_iff.mp hblank]
  · rw [List.rdropWhile, List.reverse_append, List.dropWhile_append_of_pos hback, List.rdropWhile]

end Text

namespace Number

variable {c : Char} {cs : List Char}

theorem isDecimalDigit_iff : isDecimalDigit c = true ↔ '0' ≤ c ∧ c ≤ '9' := by
  rw [isDecimalDigit, Bool.and_eq_true, decide_eq_true_iff, decide_eq_true_iff]

/-- Digits are none of the letters and marks that a number can have. -/
theorem ne_of_isDecimalDigit (h : isDecimalDigit c = true) {d : Char} (hd : isDecimalDigit d = false) :
    c ≠ d := by
  rintro rfl
  exact Bool.false_ne_true (hd.symm.trans h)

theorem isBlank_of_isDecimalDigit (h : isDecimalDigit c = true) : Text.isBlank c = false := by
  obtain ⟨hlow, hhigh⟩ := isDecimalDigit_iff.mp h
  have hlow' : 48 ≤ c.toNat := hlow
  have hhigh' : c.toNat ≤ 57 := hhigh
  exact Text.isBlank_of_visible (by omega) (by omega)

theorem toLower_of_isDecimalDigit (h : isDecimalDigit c = true) : c.toLower = c := by
  have hle : c ≤ '9' := (isDecimalDigit_iff.mp h).2
  refine dif_neg fun hupper => ?_
  exact absurd (hupper.1.trans hle) (by decide)

/-- What starts neither with a sign nor like a name is a number in digits if any. -/
theorem read?_eq_readUnsigned? (hsign : c ≠ '+' ∧ c ≠ '-') (hname : c.toLower ≠ 'n' ∧ c.toLower ≠ 'i') :
    read? (String.ofList (c :: cs)) = readUnsigned? false (c :: cs) := by
  have hnan : (c :: cs).map Char.toLower ≠ "nan".toList := fun h => hname.1 (List.cons.inj h).1
  have hinf : ¬ infinityNames.contains ((c :: cs).map Char.toLower) = true := fun h => by
    have hmem : (c :: cs).map Char.toLower ∈ infinityNames := List.contains_iff_mem.mp h
    rcases List.mem_cons.mp hmem with h | h
    · exact hname.2 (List.cons.inj h).1
    · exact hname.2 (List.cons.inj (List.mem_singleton.mp h)).1
  have hread : read? (String.ofList (c :: cs)) =
      if (c :: cs).map Char.toLower = "nan".toList then some notANumber else readSigned? false (c :: cs) := by
    rw [read?, String.toList_ofList]
    split
    · next heq => exact absurd (List.cons.inj heq).1 hsign.1
    · next heq => exact absurd (List.cons.inj heq).1 hsign.2
    · rfl
  rw [hread, if_neg hnan, readSigned?, if_neg hinf]

theorem read?_quote (rest : List Char) : read? (String.ofList ('"' :: rest)) = none := by
  have hdecimal : readDecimal? false ('"' :: rest) = none := rfl
  rw [read?_eq_readUnsigned? (by decide) (by decide), readUnsigned?, hdecimal, ite_self] <;> simp

theorem readDecimal?_digits (hne : cs ≠ []) (hdigits : ∀ c ∈ cs, isDecimalDigit c = true) :
    readDecimal? false cs = nearest? false (natOfDigits 10 cs) 1 := by
  have hp : ∀ c ∈ cs, (isDecimalDigit c || decide (c = '_')) = true := fun c hc => by
    rw [hdigits c hc, Bool.true_or]
  have hsplit : Mantissa.split isDecimalDigit cs = ⟨cs, [], []⟩ := by
    rw [Mantissa.split, List.dropWhile_eq_nil_iff.mpr hp, List.takeWhile_eq_self_iff.mpr hp,
      List.filter_eq_self.mpr hdigits]
  have hsome : ¬ cs.isEmpty = true := by rwa [List.isEmpty_iff]
  simp only [readDecimal?, hsplit, List.append_nil, ofDecimal?, List.length_nil]
  rw [if_neg hsome]
  split
  · next hzero => rw [hzero]
  · rw [if_neg (by decide)]
    exact congrArg (nearest? false · 1) (Nat.mul_one _)

theorem read?_digits (hne : cs ≠ []) (hdigits : ∀ c ∈ cs, isDecimalDigit c = true) :
    read? (String.ofList cs) = nearest? false (natOfDigits 10 cs) 1 := by
  have hno {d : Char} (hd : isDecimalDigit d = false) : d ∉ cs := fun hmem =>
    Bool.false_ne_true (hd.symm.trans (hdigits d hmem))
  have hbar : ¬ (cs.contains '_' && !underscoresOk cs) = true := by
    rw [Bool.and_eq_true, List.contains_iff_mem]
    exact fun h => hno rfl h.1
  obtain ⟨c, rest, rfl⟩ := List.exists_cons_of_ne_nil hne
  have hc := hdigits c List.mem_cons_self
  have hname : c.toLower ≠ 'n' ∧ c.toLower ≠ 'i' := by
    rw [toLower_of_isDecimalDigit hc]
    exact ⟨ne_of_isDecimalDigit hc rfl, ne_of_isDecimalDigit hc rfl⟩
  rw [read?_eq_readUnsigned? ⟨ne_of_isDecimalDigit hc rfl, ne_of_isDecimalDigit hc rfl⟩ hname,
    readUnsigned?, if_neg hbar, readDecimal?_digits hne hdigits]
  · exact fun more heq => hno (d := 'x') rfl (heq ▸ by simp)
  · exact fun more heq => hno (d := 'X') rfl (heq ▸ by simp)

end Number

namespace Value

open Text

variable {line : String} {before cs behind : List Char}

theorem ofInput_quoted (text : String) (hbefore : ∀ c ∈ before, isBlank c = true)
    (hbehind : ∀ c ∈ behind, isBlank c = true) :
    ofInput (String.ofList (before ++ ('"' :: text.toList ++ ['"']) ++ behind)) = .string text := by
  have hvisible : isBlank '"' = false := by decide
  have htrim : trimChars ('"' :: text.toList ++ ['"']) = '"' :: text.toList ++ ['"'] := by
    refine trimChars_eq_self (fun c hc => ?_) fun c hc => ?_
    · cases hc
      exact hvisible
    · rw [List.getLast?_concat] at hc
      cases hc
      exact hvisible
  rw [ofInput, String.toList_ofList, trimChars_between_blanks hbefore hbehind, htrim]
  simp

theorem ofInput_unquoted (hquotes : ∀ text : String, trimChars line.toList ≠ '"' :: text.toList ++ ['"']) :
    ofInput line = .number ((Number.read? (trim line)).getD Number.notANumber) := by
  rw [ofInput, trim]
  split
  · next rest hcs =>
    rw [hcs, Number.read?_quote, Option.getD_none]
    refine if_neg fun hlast => hquotes (String.ofList rest.dropLast) ?_
    rw [hcs, String.toList_ofList, List.cons_append, List.dropLast_append_getLast? _ hlast]
  · rfl

theorem ofInput_digits (hne : cs ≠ []) (hdigits : ∀ c ∈ cs, Number.isDecimalDigit c = true)
    (hbefore : ∀ c ∈ before, isBlank c = true) (hbehind : ∀ c ∈ behind, isBlank c = true) :
    ofInput (String.ofList (before ++ cs ++ behind)) =
      .number ((Number.nearest? false (Number.natOfDigits 10 cs) 1).getD Number.notANumber) := by
  have hvisible {c : Char} (hc : c ∈ cs) : isBlank c = false :=
    Number.isBlank_of_isDecimalDigit (hdigits c hc)
  have htrim : trimChars (String.ofList (before ++ cs ++ behind)).toList = cs := by
    rw [String.toList_ofList, trimChars_between_blanks hbefore hbehind]
    exact trimChars_eq_self (fun c hc => hvisible (List.mem_of_head? hc))
      fun c hc => hvisible (List.mem_of_getLast? hc)
  have hquotes (text : String) :
      trimChars (String.ofList (before ++ cs ++ behind)).toList ≠ '"' :: text.toList ++ ['"'] := by
    rw [htrim]
    rintro rfl
    exact Bool.false_ne_true (hdigits '"' List.mem_cons_self)
  rw [ofInput_unquoted hquotes, trim, htrim, Number.read?_digits hne hdigits]

end Value

end PocketBasic
