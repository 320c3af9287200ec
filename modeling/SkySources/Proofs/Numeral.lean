import Mathlib
import SkySources.Proofs.Word

/-!
# Numerals

What a text reads as is said here by rules of their own. A numeral stands between blanks, and a
sign may come first. Digits are of any script, and a single underscore may stand between two of
them (`Spells`); they count as in the number system of base ten. A whole number is nothing but
digits. A decimal has digits before or behind a point, or on both sides, or no point, and it may
have an exponent. Reading follows these rules, in both directions.

What is proved:
  1. `digit?_eq_some_iff`: the digits;
  2. `digits_complete`, `digits_sound`: runs of digits;
  3. `wraps_of_signed`, `Wraps.signed_eq`: blanks and signs;
  4. `whole?_eq_some_iff`: whole numbers;
  5. `decimal?_complete`, `decimal?_sound`: decimals.
-/

namespace SkySources.Text

/-! ## Digits -/

/-- The character is a digit of some script, and this is what it counts. -/
def IsDigitOf (c : Char) (d : Nat) : Prop := d < 10 ∧ ∃ first ∈ zeroCodes, c.toNat = first + d

theorem digit?_eq_some_iff {c : Char} {d : Nat} : digit? c = some d ↔ IsDigitOf c d := by
  have hapart : ∀ a ∈ zeroCodes, ∀ b ∈ zeroCodes, a < b + 10 → b < a + 10 → a = b := by
    decide +kernel
  unfold digit?
  rw [Option.map_eq_some_iff]
  constructor
  · intro h
    obtain ⟨first, hfind, rfl⟩ := h
    have hrange : first ≤ c.toNat ∧ c.toNat < first + 10 := by
      simpa using List.find?_some hfind
    exact ⟨by omega, first, List.mem_of_find?_eq_some hfind, by omega⟩
  · intro h
    obtain ⟨hd, first, hfirst, hc⟩ := h
    have hrange : decide (first ≤ c.toNat ∧ c.toNat < first + 10) = true := decide_eq_true (by omega)
    cases hfind : zeroCodes.find? fun code => decide (code ≤ c.toNat ∧ c.toNat < code + 10) with
    | none => exact absurd hrange (List.find?_eq_none.1 hfind first hfirst)
    | some code =>
      have hcode : code ≤ c.toNat ∧ c.toNat < code + 10 := by simpa using List.find?_some hfind
      obtain rfl : code = first :=
        hapart code (List.mem_of_find?_eq_some hfind) first hfirst (by omega) (by omega)
      exact ⟨code, rfl, by omega⟩

theorem IsDigitOf.ne_underscore {c : Char} {d : Nat} (h : IsDigitOf c d) : c ≠ '_' := by
  rintro rfl
  have hnone : digit? '_' = none := by decide +kernel
  rw [digit?_eq_some_iff.2 h] at hnone
  cases hnone

/-- Digits are not blank. -/
theorem IsDigitOf.isNumberBlank_eq {c : Char} {d : Nat} (h : IsDigitOf c d) :
    isNumberBlank c = false := by
  have hcodes : ∀ blank ∈ blankCodes, ∀ first ∈ zeroCodes, blank < first ∨ first + 10 ≤ blank := by
    decide +kernel
  obtain ⟨hd, first, hfirst, hc⟩ := h
  have hblank : isBlank c = false := by
    rw [isBlank, ← Bool.not_eq_true, List.contains_iff_mem]
    intro hmem
    have hrange := hcodes _ hmem first hfirst
    omega
  rw [isNumberBlank, hblank, Bool.false_and]

/-! ## Runs of digits -/

/-- The characters are digits that count so much, with at most one underscore between any two. -/
inductive Spells : List Char → List Nat → Prop where
  | last {c : Char} {d : Nat} : IsDigitOf c d → Spells [c] [d]
  | more {c : Char} {d : Nat} {cs : List Char} {ds : List Nat} :
      IsDigitOf c d → Spells cs ds → Spells (c :: cs) (d :: ds)
  | group {c : Char} {d : Nat} {cs : List Char} {ds : List Nat} :
      IsDigitOf c d → Spells cs ds → Spells (c :: '_' :: cs) (d :: ds)

/-- The characters spell digits, or there are none. -/
def SpellsAny (cs : List Char) (ds : List Nat) : Prop := cs = [] ∧ ds = [] ∨ Spells cs ds

/-- The natural number that digits stand for, the most significant one first. -/
def amount (ds : List Nat) : Nat := Nat.ofDigits 10 ds.reverse

theorem number_eq_amount (ds : List Nat) : number 10 ds = amount ds := by
  rw [amount, Nat.ofDigits_eq_foldr, List.foldr_reverse, number]
  simp only [Nat.cast_id, Nat.add_comm, Nat.mul_comm]

/-- No digits go on here. -/
def Ends (rest : List Char) : Prop := digitsAfterDigit digit? rest = ([], rest)

section Runs
variable {c : Char} {d : Nat} {cs rest : List Char} {ds : List Nat}

theorem Spells.exists_cons (h : Spells cs ds) :
    ∃ c d cs' ds', cs = c :: cs' ∧ ds = d :: ds' ∧ IsDigitOf c d := by
  cases h with
  | last hc => exact ⟨_, _, _, _, rfl, rfl, hc⟩
  | more hc => exact ⟨_, _, _, _, rfl, rfl, hc⟩
  | group hc => exact ⟨_, _, _, _, rfl, rfl, hc⟩

theorem Spells.eq_of_mem (h : Spells cs ds) : ∀ x ∈ cs, x = '_' ∨ ∃ d, IsDigitOf x d := by
  induction h with
  | last hc =>
    intro x hx
    exact .inr ⟨_, List.mem_singleton.1 hx ▸ hc⟩
  | more hc _ ih =>
    intro x hx
    rcases List.mem_cons.1 hx with rfl | hx
    · exact .inr ⟨_, hc⟩
    · exact ih x hx
  | group hc _ ih =>
    intro x hx
    rcases List.mem_cons.1 hx with rfl | hx
    · exact .inr ⟨_, hc⟩
    · rcases List.mem_cons.1 hx with rfl | hx
      · exact .inl rfl
      · exact ih x hx

theorem digitsAfterDigit_cons (h : IsDigitOf c d) (cs : List Char) :
    digitsAfterDigit digit? (c :: cs) =
      (d :: (digitsAfterDigit digit? cs).1, (digitsAfterDigit digit? cs).2) := by
  rw [digitsAfterDigit.eq_3 _ _ _ fun _ _ hc => absurd hc h.ne_underscore, digit?_eq_some_iff.2 h]

theorem digitsAfterDigit_underscore (h : IsDigitOf c d) (cs : List Char) :
    digitsAfterDigit digit? ('_' :: c :: cs) = digitsAfterDigit digit? (c :: cs) := by
  rw [digitsAfterDigit_cons h, digitsAfterDigit.eq_2, digit?_eq_some_iff.2 h]

/-- Digits that are spelled out are read, up to where no digits go on. -/
theorem digitsAfterDigit_complete (h : Spells cs ds) (hrest : Ends rest) :
    digitsAfterDigit digit? (cs ++ rest) = (ds, rest) := by
  induction h with
  | last hc => rw [List.singleton_append, digitsAfterDigit_cons hc, hrest]
  | more hc _ ih => rw [List.cons_append, digitsAfterDigit_cons hc, ih]
  | group hc hcs ih =>
    obtain ⟨c', d', cs', ds', rfl, -, hc'⟩ := hcs.exists_cons
    rw [List.cons_append] at ih
    rw [List.cons_append, List.cons_append, List.cons_append, digitsAfterDigit_cons hc,
      digitsAfterDigit_underscore hc', ih]

theorem digits_complete (h : SpellsAny cs ds) (hrest : Ends rest) :
    digits digit? (cs ++ rest) = (ds, rest) := by
  rcases h with ⟨rfl, rfl⟩ | h
  · rw [List.nil_append]
    unfold digits
    split
    · rfl
    · exact hrest
  · obtain ⟨c, d, cs', ds', rfl, -, hc⟩ := h.exists_cons
    rw [List.cons_append, digits.eq_2 _ _ fun _ heq => hc.ne_underscore (List.cons.inj heq).1,
      ← List.cons_append]
    exact digitsAfterDigit_complete h hrest

/-- What is read behind a digit: nothing, or digits that are spelled out, perhaps behind an
underscore. -/
theorem digitsAfterDigit_sound (h : digitsAfterDigit digit? cs = (ds, rest)) :
    ds = [] ∧ rest = cs ∨ ∃ body, Spells body ds ∧ (cs = body ++ rest ∨ cs = '_' :: body ++ rest) := by
  -- one more digit in front of what is read
  have hstep {c : Char} {d : Nat} (hc : IsDigitOf c d) {cs : List Char} {ds : List Nat}
      (ih : ds = [] ∧ rest = cs ∨
        ∃ body, Spells body ds ∧ (cs = body ++ rest ∨ cs = '_' :: body ++ rest)) :
      ∃ body, Spells body (d :: ds) ∧ c :: cs = body ++ rest := by
    rcases ih with ⟨rfl, rfl⟩ | ⟨body, hbody, rfl | rfl⟩
    · exact ⟨[c], .last hc, rfl⟩
    · exact ⟨c :: body, .more hc hbody, rfl⟩
    · exact ⟨c :: '_' :: body, .group hc hbody, rfl⟩
  induction cs using digitsAfterDigit.induct digit? generalizing ds with
  | case1 =>
    cases h
    exact .inl ⟨rfl, rfl⟩
  | case2 c cs d hc es tail hread ih =>
    rw [digitsAfterDigit.eq_2, hc] at h
    simp only [hread] at h
    cases h
    obtain ⟨body, hbody, heq⟩ := hstep (digit?_eq_some_iff.1 hc) (ih hread)
    exact .inr ⟨body, hbody, .inr (congrArg ('_' :: ·) heq)⟩
  | case3 c cs hc =>
    rw [digitsAfterDigit.eq_2, hc] at h
    cases h
    exact .inl ⟨rfl, rfl⟩
  | case4 c cs hmark d hc es tail hread ih =>
    rw [digitsAfterDigit.eq_3 _ _ _ hmark, hc] at h
    simp only [hread] at h
    cases h
    obtain ⟨body, hbody, heq⟩ := hstep (digit?_eq_some_iff.1 hc) (ih hread)
    exact .inr ⟨body, hbody, .inl heq⟩
  | case5 c cs hmark hc =>
    rw [digitsAfterDigit.eq_3 _ _ _ hmark, hc] at h
    cases h
    exact .inl ⟨rfl, rfl⟩

theorem digits_sound (h : digits digit? cs = (ds, rest)) :
    ∃ body, SpellsAny body ds ∧ cs = body ++ rest := by
  unfold digits at h
  split at h
  · cases h
    exact ⟨[], .inl ⟨rfl, rfl⟩, rfl⟩
  · next hmark =>
    rcases digitsAfterDigit_sound h with ⟨rfl, rfl⟩ | ⟨body, hbody, rfl | rfl⟩
    · exact ⟨[], .inl ⟨rfl, rfl⟩, rfl⟩
    · exact ⟨body, .inr hbody, rfl⟩
    · exact absurd rfl (hmark _)

end Runs

/-! ## Blanks and signs -/

/-- The sign of a number: none, a plus or a minus. -/
inductive IsSign : List Char → Bool → Prop where
  | none : IsSign [] false
  | plus : IsSign ['+'] false
  | minus : IsSign ['-'] true

/-- The text is a body, perhaps behind a sign, between blanks. -/
def Wraps (text : String) (negative : Bool) (body : List Char) : Prop :=
  ∃ before sign after, text.toList = before ++ (sign ++ body) ++ after ∧ IsSign sign negative ∧
    (∀ c ∈ before, isNumberBlank c = true) ∧ ∀ c ∈ after, isNumberBlank c = true

/-- The characters have no blanks, and do not begin with a sign. -/
structure IsBody (body : List Char) : Prop where
  solid : ∀ c ∈ body, isNumberBlank c = false
  unsigned : ∀ c ∈ body.head?, c ≠ '-' ∧ c ≠ '+'

section Wraps
variable {text : String} {negative : Bool} {sign body : List Char}

theorem IsSign.signed_append (h : IsSign sign negative) (hbody : ∀ c ∈ body.head?, c ≠ '-' ∧ c ≠ '+') :
    signed (sign ++ body) = (negative, body) := by
  cases h with
  | plus => rfl
  | minus => rfl
  | none =>
    cases body with
    | nil => rfl
    | cons c body =>
      obtain ⟨hminus, hplus⟩ := hbody c rfl
      apply signed.eq_3
      · intro rest heq
        exact hminus (List.cons.inj heq).1
      · intro rest heq
        exact hplus (List.cons.inj heq).1

theorem IsSign.solid (h : IsSign sign negative) : ∀ c ∈ sign, isNumberBlank c = false := by
  cases h with
  | none => exact List.forall_mem_nil _
  | plus => exact List.forall_mem_singleton.2 rfl
  | minus => exact List.forall_mem_singleton.2 rfl

theorem exists_isSign (cs : List Char) :
    ∃ sign, IsSign sign (signed cs).1 ∧ cs = sign ++ (signed cs).2 := by
  unfold signed
  split
  · exact ⟨['-'], .minus, rfl⟩
  · exact ⟨['+'], .plus, rfl⟩
  · exact ⟨[], .none, rfl⟩

theorem wraps_of_signed (h : signed (trimmedNumber text.toList) = (negative, body)) :
    Wraps text negative body := by
  obtain ⟨before, after, htext, hbefore, hafter⟩ :=
    exists_eq_append_stripped isNumberBlank text.toList
  obtain ⟨sign, hsign, hinner⟩ := exists_isSign (trimmedNumber text.toList)
  rw [h] at hsign hinner
  refine ⟨before, sign, after, ?_, hsign, hbefore, hafter⟩
  rw [← hinner]
  exact htext

theorem Wraps.signed_eq (h : Wraps text negative body) (hbody : IsBody body) :
    signed (trimmedNumber text.toList) = (negative, body) := by
  obtain ⟨before, sign, after, htext, hsign, hbefore, hafter⟩ := h
  have htrimmed : trimmedNumber text.toList = sign ++ body := by
    rw [htext]
    exact stripped_append hbefore hafter (List.forall_mem_append.2 ⟨hsign.solid, hbody.solid⟩)
  rw [htrimmed, hsign.signed_append hbody.unsigned]

end Wraps

theorem IsDigitOf.ne_sign {c : Char} {d : Nat} (h : IsDigitOf c d) : c ≠ '-' ∧ c ≠ '+' := by
  have hnone : digit? '-' = none ∧ digit? '+' = none := by decide +kernel
  rw [← digit?_eq_some_iff] at h
  constructor
  · rintro rfl
    rw [hnone.1] at h
    cases h
  · rintro rfl
    rw [hnone.2] at h
    cases h

theorem Spells.solid {cs : List Char} {ds : List Nat} (h : Spells cs ds) :
    ∀ c ∈ cs, isNumberBlank c = false := by
  intro c hc
  rcases h.eq_of_mem c hc with rfl | ⟨d, hd⟩
  · decide
  · exact hd.isNumberBlank_eq

theorem Spells.isBody {cs : List Char} {ds : List Nat} (h : Spells cs ds) : IsBody cs where
  solid := h.solid
  unsigned := by
    obtain ⟨c, d, cs', ds', rfl, -, hc⟩ := h.exists_cons
    rintro _ ⟨⟩
    exact hc.ne_sign

/-- No small letter of a word is that of a digit. -/
theorem IsDigitOf.not_isPlain {c : Char} {d : Nat} (h : IsDigitOf c d) : ¬IsPlain c.toLower := by
  have hcodes : ∀ first ∈ zeroCodes, first + 10 ≤ 65 ∨ 123 ≤ first := by decide +kernel
  obtain ⟨hd, first, hfirst, hc⟩ := h
  have hrange := hcodes first hfirst
  rw [toLower_eq_ofNat, if_neg (by omega), Char.ofNat_toNat, IsPlain]
  omega

/-- A word of plain letters can be the body of a numeral. -/
theorem isBody_of_word {cs word : List Char} (h : cs.map Char.toLower = word)
    (hword : ∀ w ∈ word, IsPlain w) : IsBody cs := by
  have hplain (c : Char) (hc : c ∈ cs) : IsPlain c.toLower := hword _ (h ▸ List.mem_map_of_mem hc)
  constructor
  · intro c hc
    have hblank : isBlank c = false :=
      Bool.eq_false_iff.2 fun hblank => not_isPlain_of_isBlank hblank (hplain c hc)
    rw [isNumberBlank, hblank, Bool.false_and]
  · intro c hc
    have hletter := hplain c (List.mem_of_mem_head? hc)
    constructor
    · rintro rfl
      exact absurd hletter (by decide)
    · rintro rfl
      exact absurd hletter (by decide)

/-! ## Whole numbers -/

/-- The number with its sign. -/
def withSign (negative : Bool) (n : Nat) : Int := if negative then -(n : Int) else n

/-- The text is a numeral of a whole number: digits, not too many, that count so much. -/
def IsWhole (text : String) (n : Int) : Prop :=
  ∃ negative body ds, Wraps text negative body ∧ Spells body ds ∧ ds.length ≤ digitLimit ∧
    n = withSign negative (amount ds)

theorem ends_nil : Ends [] := rfl

theorem whole?_eq_some_iff {text : String} {n : Int} : whole? text = some n ↔ IsWhole text n := by
  unfold whole?
  constructor
  · intro h
    cases hsigned : signed (trimmedNumber text.toList) with
    | mk negative cs =>
      cases hdigits : digits digit? cs with
      | mk ds rest =>
        simp only [hsigned, hdigits] at h
        split at h
        · next ds' heq =>
          cases heq
          split at h
          · cases h
          · next hcount =>
            rw [not_or, List.isEmpty_iff, not_lt] at hcount
            obtain ⟨body, hbody | hbody, rfl⟩ := digits_sound hdigits
            · exact absurd hbody.2 hcount.1
            · rw [List.append_nil] at hsigned
              refine ⟨negative, body, ds, wraps_of_signed hsigned, hbody, hcount.2, ?_⟩
              rw [number_eq_amount] at h
              exact (Option.some.inj h).symm
        · cases h
  · intro h
    obtain ⟨negative, body, ds, hwraps, hbody, hcount, rfl⟩ := h
    have hdigits := digits_complete (.inr hbody) ends_nil
    obtain ⟨c, d, cs', ds', -, rfl, -⟩ := hbody.exists_cons
    rw [List.append_nil] at hdigits
    simp only [hwraps.signed_eq hbody.isBody, hdigits]
    rw [if_neg, number_eq_amount]
    · rfl
    · rw [not_or, not_lt]
      exact ⟨Bool.false_ne_true, hcount⟩

/-! ## Decimals -/

/-- Digits behind a point, or nothing at all. -/
inductive IsFraction : List Char → List Nat → Prop where
  | none : IsFraction [] []
  | point {cs : List Char} {ds : List Nat} : SpellsAny cs ds → IsFraction ('.' :: cs) ds

/-- An exponent behind its mark, or nothing at all. -/
inductive IsExponent : List Char → Int → Prop where
  | none : IsExponent [] 0
  | power {mark : Char} {sign cs : List Char} {negative : Bool} {ds : List Nat} :
      mark = 'e' ∨ mark = 'E' → IsSign sign negative → Spells cs ds →
      IsExponent (mark :: (sign ++ cs)) (withSign negative (amount ds))

/-- The characters are a decimal without a sign, and this is the number it stands for: digits, of
which those behind the point count less, and a power of ten. -/
def IsDecimal (cs : List Char) (q : ℚ) : Prop :=
  ∃ front back power ds es k, cs = front ++ (back ++ power) ∧ SpellsAny front ds ∧
    IsFraction back es ∧ IsExponent power k ∧ ds ++ es ≠ [] ∧
    q = amount (ds ++ es) * 10 ^ (k - es.length)

section Decimals
variable {cs back power : List Char} {es : List Nat} {k : Int}

theorem exponent?_mark {mark : Char} (h : mark = 'e' ∨ mark = 'E') (cs : List Char) :
    exponent? (mark :: cs) = match digits digit? (signed cs).2 with
      | (ds, []) => if ds.isEmpty then none else some (withSign (signed cs).1 (number 10 ds))
      | _ => none := if_pos h

theorem exponent?_eq_some_iff : exponent? cs = some k ↔ IsExponent cs k := by
  constructor
  · intro h
    cases cs with
    | nil =>
      cases h
      exact .none
    | cons mark cs =>
      by_cases hmark : mark = 'e' ∨ mark = 'E'
      · rw [exponent?_mark hmark] at h
        split at h
        · next ds hdigits =>
          split at h
          · cases h
          · next hds =>
            obtain ⟨sign, hsign, hcs⟩ := exists_isSign cs
            obtain ⟨body, ⟨-, rfl⟩ | hbody, heq⟩ := digits_sound hdigits
            · exact absurd rfl hds
            · rw [List.append_nil] at heq
              rw [hcs, heq, ← Option.some.inj h, number_eq_amount]
              exact .power hmark hsign hbody
        · cases h
      · rw [exponent?, if_neg hmark] at h
        cases h
  · intro h
    cases h with
    | none => rfl
    | @power mark sign cs negative ds hmark hsign hcs =>
      have hdigits := digits_complete (.inr hcs) ends_nil
      obtain ⟨c, d, cs', ds', -, rfl, -⟩ := hcs.exists_cons
      rw [List.append_nil] at hdigits
      rw [exponent?_mark hmark, hsign.signed_append hcs.isBody.unsigned, hdigits]
      simp only [List.isEmpty_cons, Bool.false_eq_true, if_false, number_eq_amount]

theorem IsExponent.ends (h : IsExponent power k) : Ends power := by
  cases h with
  | none => exact ends_nil
  | power hmark =>
    rcases hmark with rfl | rfl
    · rfl
    · rfl

theorem IsFraction.ends (h : IsFraction back es) (hpower : IsExponent power k) :
    Ends (back ++ power) := by
  cases h with
  | none => exact hpower.ends
  | point => rfl

theorem fraction_complete (h : IsFraction back es) (hpower : IsExponent power k) :
    fraction (back ++ power) = (es, power) := by
  cases h with
  | point hcs => exact digits_complete hcs hpower.ends
  | none =>
    cases hpower with
    | none => rfl
    | power hmark =>
      rcases hmark with rfl | rfl
      · rfl
      · rfl

theorem fraction_sound {rest : List Char} (h : fraction cs = (es, rest)) :
    ∃ back, IsFraction back es ∧ cs = back ++ rest := by
  unfold fraction at h
  split at h
  · next cs =>
    obtain ⟨body, hbody, rfl⟩ := digits_sound h
    exact ⟨'.' :: body, .point hbody, rfl⟩
  · cases h
    exact ⟨[], .none, rfl⟩

/-- A decimal is read as the number it stands for. -/
theorem decimal?_complete {q : ℚ} (h : IsDecimal cs q) (negative : Bool) :
    ∃ d, decimal? negative cs = some d ∧ d.negative = negative ∧ q = d.digits * 10 ^ d.exponent := by
  obtain ⟨front, back, power, ds, es, k, rfl, hfront, hback, hpower, hne, rfl⟩ := h
  have hdigits := digits_complete hfront (hback.ends hpower)
  have hfraction := fraction_complete hback hpower
  have hsome : ¬(ds.isEmpty = true ∧ es.isEmpty = true) := by
    rw [List.isEmpty_iff, List.isEmpty_iff, ← List.append_eq_nil_iff]
    exact hne
  refine ⟨⟨negative, number 10 (ds ++ es), k - Int.ofNat es.length⟩, ?_, rfl, ?_⟩
  · simp only [decimal?, hdigits, hfraction, if_neg hsome, exponent?_eq_some_iff.2 hpower,
      Option.map_some]
  · rw [number_eq_amount]
    rfl

/-- What is read as a decimal is one. -/
theorem decimal?_sound {negative : Bool} {d : Decimal} (h : decimal? negative cs = some d) :
    d.negative = negative ∧ IsDecimal cs (d.digits * 10 ^ d.exponent) := by
  unfold decimal? at h
  cases hdigits : digits digit? cs with
  | mk ds rest =>
    cases hfraction : fraction rest with
    | mk es power =>
      simp only [hdigits, hfraction] at h
      split at h
      · cases h
      · next hne =>
        obtain ⟨k, hk, rfl⟩ := Option.map_eq_some_iff.1 h
        obtain ⟨front, hfront, rfl⟩ := digits_sound hdigits
        obtain ⟨back, hback, rfl⟩ := fraction_sound hfraction
        refine ⟨rfl, front, back, power, ds, es, k, rfl, hfront, hback,
          exponent?_eq_some_iff.1 hk, ?_, ?_⟩
        · rw [List.isEmpty_iff, List.isEmpty_iff, ← List.append_eq_nil_iff] at hne
          exact hne
        · rw [number_eq_amount]
          rfl

theorem SpellsAny.solid {ds : List Nat} (h : SpellsAny cs ds) :
    ∀ c ∈ cs, isNumberBlank c = false := by
  rcases h with ⟨rfl, -⟩ | h
  · exact List.forall_mem_nil _
  · exact h.solid

/-- A decimal begins with a digit or with the point. -/
theorem IsDecimal.exists_head {q : ℚ} (h : IsDecimal cs q) :
    ∃ c rest, cs = c :: rest ∧ (c = '.' ∨ ∃ d, IsDigitOf c d) := by
  obtain ⟨front, back, power, ds, es, k, rfl, hfront, hback, -, hne, -⟩ := h
  rcases hfront with ⟨rfl, rfl⟩ | hfront
  · cases hback with
    | none => exact absurd rfl hne
    | point => exact ⟨_, _, rfl, .inl rfl⟩
  · obtain ⟨c, d, cs', ds', rfl, -, hc⟩ := hfront.exists_cons
    exact ⟨c, _, rfl, .inr ⟨d, hc⟩⟩

theorem IsDecimal.isBody {q : ℚ} (h : IsDecimal cs q) : IsBody cs := by
  obtain ⟨c, rest, hcs, hc⟩ := h.exists_head
  obtain ⟨front, back, power, ds, es, k, heq, hfront, hback, hpower, -, -⟩ := h
  constructor
  · rw [heq, List.forall_mem_append, List.forall_mem_append]
    refine ⟨hfront.solid, ?_, ?_⟩
    · cases hback with
      | none => exact List.forall_mem_nil _
      | point hcs => exact List.forall_mem_cons.2 ⟨rfl, hcs.solid⟩
    · cases hpower with
      | none => exact List.forall_mem_nil _
      | power hmark hsign hcs =>
        refine List.forall_mem_cons.2 ⟨?_, List.forall_mem_append.2 ⟨hsign.solid, hcs.solid⟩⟩
        rcases hmark with rfl | rfl
        · rfl
        · rfl
  · rw [hcs]
    rintro _ ⟨⟩
    rcases hc with rfl | ⟨d, hd⟩
    · decide
    · exact hd.ne_sign

end Decimals

end SkySources.Text
