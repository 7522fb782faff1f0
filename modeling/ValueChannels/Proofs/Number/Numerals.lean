import ValueChannels.Number.Numeral
import ValueChannels.Proofs.Number.Shortest

/-!
Numerals that are read back. Whatever form the digits of a double are written in, they are read as
a decimal that lies in its rounding interval, and so as the double itself. Main statement:
`double?_written`.
-/

namespace ValueChannels

theorem span_append {α : Type} {test : α → Bool} {front behind : List α}
    (passes : ∀ c ∈ front, test c = true) (fails : ∀ c ∈ behind.head?, test c = false) :
    (front ++ behind).takeWhile test = front ∧ (front ++ behind).dropWhile test = behind := by
  rw [List.takeWhile_append_of_pos passes, List.dropWhile_append_of_pos passes]
  cases behind with
  | nil => exact ⟨List.append_nil front, rfl⟩
  | cons c rest =>
      have stops : test c = false := fails c rfl
      simp [stops]

namespace Decimal

theorem isDigit_toDigits {n : Nat} {c : Char} (member : c ∈ Nat.toDigits 10 n) :
    c.isDigit = true :=
  Nat.isDigit_of_mem_toDigits (by decide) (by decide) member

theorem exists_zeros (decimal : Decimal) : ∃ places,
    Nat.toDigits 10 decimal.digits = decimal.significantDigits ++ List.replicate places '0' := by
  let reversed := (Nat.toDigits 10 decimal.digits).reverse
  refine ⟨(reversed.takeWhile (· == '0')).length, ?_⟩
  have zeros : reversed.takeWhile (· == '0') =
      List.replicate (reversed.takeWhile (· == '0')).length '0' := by
    rw [List.eq_replicate_iff]
    refine ⟨rfl, fun c member => ?_⟩
    exact eq_of_beq (List.all_eq_true.mp List.all_takeWhile c member)
  have whole := List.takeWhile_append_dropWhile (p := (· == '0')) (l := reversed)
  rw [zeros] at whole
  have back := congrArg List.reverse whole
  rw [List.reverse_append, List.reverse_replicate, List.reverse_reverse] at back
  exact back.symm

theorem isDigit_significantDigits {decimal : Decimal} {c : Char}
    (member : c ∈ decimal.significantDigits) : c.isDigit = true := by
  obtain ⟨places, whole⟩ := decimal.exists_zeros
  apply isDigit_toDigits (n := decimal.digits)
  rw [whole]
  exact List.mem_append_left _ member

theorem mem_signedDigits {n : Int} {c : Char} (member : c ∈ signedDigits n) :
    c = '-' ∨ c.isDigit = true := by
  rcases List.mem_append.mp member with sign | digit
  · split at sign
    · exact Or.inl (List.mem_singleton.mp sign)
    · cases sign
  · exact Or.inr (isDigit_toDigits digit)

theorem mem_plain {digits : List Char} {position : Int} {c : Char}
    (member : c ∈ plain digits position) : c = '0' ∨ c = '.' ∨ c ∈ digits := by
  unfold plain at member
  split at member
  · simp only [List.mem_cons, List.mem_append, List.mem_replicate] at member
    grind
  · split at member
    · simp only [List.mem_cons, List.mem_append, List.mem_replicate] at member
      grind
    · simp only [List.mem_cons, List.mem_append] at member
      grind [List.mem_of_mem_take, List.mem_of_mem_drop]

theorem mem_scientific {digits : List Char} {position : Int} {c : Char}
    (member : c ∈ scientific digits position) :
    c = '.' ∨ c = 'e' ∨ c ∈ digits ∨ c ∈ signedDigits (position - 1) := by
  unfold scientific at member
  dsimp only at member
  split at member
  · simp only [List.mem_append, List.mem_cons] at member ⊢
    grind
  · simp only [List.mem_append, List.mem_cons] at member ⊢
    grind

end Decimal

/-- The characters in the text of a double that are no digits. -/
def numeralMarks : List Char := ['-', '.', 'e', 'N', 'a', 'i', 'n', 'f']

theorem Double.mem_written {x : Double} {c : Char} (member : c ∈ x.written .literal) :
    c.isDigit = true ∨ c ∈ numeralMarks := by
  have signed {chars : List Char} (known : c ∈ chars → c.isDigit = true ∨ c ∈ numeralMarks)
      (inside : c ∈ (if x.negative then ['-'] else []) ++ chars) :
      c.isDigit = true ∨ c ∈ numeralMarks := by
    rcases List.mem_append.mp inside with sign | rest
    · split at sign
      · rw [List.mem_singleton.mp sign]
        exact Or.inr (by decide)
      · cases sign
    · exact known rest
  have word {chars : List Char} (marks : chars.all (fun c => c.isDigit || numeralMarks.contains c))
      (inside : c ∈ chars) : c.isDigit = true ∨ c ∈ numeralMarks := by
    have mark := List.all_eq_true.mp marks c inside
    rwa [Bool.or_eq_true, List.contains_iff_mem] at mark
  unfold written at member
  dsimp only at member
  split at member
  · exact word (by decide) member
  split at member
  · exact signed (word (by decide)) member
  split at member
  · exact signed (word (by decide)) member
  split at member
  · refine signed (fun inside => ?_) member
    rcases Decimal.mem_plain inside with zero | point | digit
    · exact Or.inl (zero ▸ rfl)
    · exact Or.inr (point ▸ by decide)
    · exact Or.inl (Decimal.isDigit_significantDigits digit)
  · refine signed (fun inside => ?_) member
    rcases Decimal.mem_scientific inside with point | mark | digit | exponent
    · exact Or.inr (point ▸ by decide)
    · exact Or.inr (mark ▸ by decide)
    · exact Or.inl (Decimal.isDigit_significantDigits digit)
    · rcases Decimal.mem_signedDigits exponent with minus | digit
      · exact Or.inr (minus ▸ by decide)
      · exact Or.inl digit

namespace Numeral

/-! ### Digits and signs -/

theorem digitsValue_eq (digits : List Char) :
    digitsValue digits = Nat.ofDigitChars 10 digits 0 :=
  Nat.ofDigitChars_eq_foldl.symm

theorem digitsValue_toDigits (n : Nat) : digitsValue (Nat.toDigits 10 n) = n := by
  rw [digitsValue_eq]
  exact Nat.ofDigitChars_toDigits (by decide) (by decide)

theorem digitsValue_append_zeros (digits : List Char) (count : Nat) :
    digitsValue (digits ++ List.replicate count '0') = digitsValue digits * 10 ^ count := by
  rw [digitsValue_eq, Nat.ofDigitChars_append, Nat.ofDigitChars_replicate_zero, Nat.mul_comm,
    digitsValue_eq]

theorem digitsValue_zeros_append (count : Nat) (digits : List Char) :
    digitsValue (List.replicate count '0' ++ digits) = digitsValue digits := by
  rw [digitsValue_eq, Nat.ofDigitChars_append, Nat.ofDigitChars_replicate_zero, Nat.mul_zero,
    digitsValue_eq]

theorem natural?_toDigits (n : Nat) : natural? (Nat.toDigits 10 n) = some n := by
  have something : (Nat.toDigits 10 n).isEmpty = false :=
    List.isEmpty_eq_false_iff.mpr Nat.toDigits_ne_nil
  have digits : (Nat.toDigits 10 n).all Char.isDigit = true :=
    List.all_eq_true.mpr fun c member => Decimal.isDigit_toDigits member
  rw [natural?, something, digits, digitsValue_toDigits]
  rfl

theorem takeSign_append {negative : Prop} [Decidable negative] {body : List Char}
    (bare : ∀ c ∈ body.head?, c ≠ '-' ∧ c ≠ '+') :
    takeSign ((if negative then ['-'] else []) ++ body) = (decide negative, body) := by
  by_cases minus : negative
  · rw [if_pos minus, decide_eq_true minus]
    rfl
  · rw [if_neg minus, decide_eq_false minus, List.nil_append]
    cases body with
    | nil => rfl
    | cons c rest =>
        obtain ⟨noMinus, noPlus⟩ := bare c rfl
        unfold takeSign
        split
        · rename_i same
          cases same
          exact absurd rfl noMinus
        · rename_i same
          cases same
          exact absurd rfl noPlus
        · rfl

theorem bare_of_isDigit {body : List Char} (digit : ∀ c ∈ body.head?, c.isDigit = true) :
    ∀ c ∈ body.head?, c ≠ '-' ∧ c ≠ '+' := by
  intro c first
  have isDigit := digit c first
  constructor
  · intro same
    rw [same] at isDigit
    cases isDigit
  · intro same
    rw [same] at isDigit
    cases isDigit

theorem integer?_signedDigits (n : Int) : integer? (Decimal.signedDigits n) = some n := by
  have bare : ∀ c ∈ (Nat.toDigits 10 n.natAbs).head?, c ≠ '-' ∧ c ≠ '+' :=
    bare_of_isDigit fun c first => Decimal.isDigit_toDigits (List.mem_of_mem_head? first)
  rw [integer?, Decimal.signedDigits, takeSign_append bare]
  dsimp only
  rw [natural?_toDigits]
  show some (if decide (n < 0) = true then -(n.natAbs : Int) else n.natAbs) = some n
  by_cases minus : n < 0
  · rw [decide_eq_true minus, if_pos rfl, Int.ofNat_natAbs_of_nonpos (Int.le_of_lt minus),
      Int.neg_neg]
  · rw [decide_eq_false minus, if_neg Bool.false_ne_true,
      Int.natAbs_of_nonneg (Int.not_lt.mp minus)]

/-! ### Numerals without a sign -/

section Unsigned

variable (negative : Bool) {whole places : List Char}

theorem unsigned?_point (exponent : List Char) (something : whole ≠ [])
    (digits : ∀ c ∈ whole, c.isDigit = true) (digits' : ∀ c ∈ places, c.isDigit = true)
    (ends : ∀ c ∈ exponent.head?, c.isDigit = false) :
    unsigned? negative (whole ++ '.' :: (places ++ exponent)) =
      (exponent? exponent).map fun scale =>
        decimalValue negative (digitsValue (whole ++ places)) (scale - places.length) := by
  have first := span_append digits
    (show ∀ c ∈ ('.' :: (places ++ exponent)).head?, c.isDigit = false by
      intro c same
      cases same
      rfl)
  have second := span_append digits' ends
  rw [unsigned?, first.1, first.2]
  simp only [second.1, second.2, List.isEmpty_eq_false_iff.mpr something, Bool.false_and,
    Bool.false_eq_true, if_false]

theorem unsigned?_whole (exponent : List Char) (something : whole ≠ [])
    (digits : ∀ c ∈ whole, c.isDigit = true) :
    unsigned? negative (whole ++ 'e' :: exponent) =
      (exponent? ('e' :: exponent)).map fun scale =>
        decimalValue negative (digitsValue whole) scale := by
  have first := span_append digits
    (show ∀ c ∈ ('e' :: exponent).head?, c.isDigit = false by
      intro c same
      cases same
      rfl)
  rw [unsigned?, first.1, first.2]
  simp [List.isEmpty_eq_false_iff.mpr something]

theorem unsigned?_plain {digits : List Char} (position : Int) (something : digits ≠ [])
    (isDigit : ∀ c ∈ digits, c.isDigit = true) : ∃ zeros : Nat,
    unsigned? negative (Decimal.plain digits position) =
      some (decimalValue negative (digitsValue digits * 10 ^ zeros)
        (position - digits.length - zeros)) := by
  have isZero {count : Nat} {c : Char} (member : c ∈ List.replicate count '0') :
      c.isDigit = true := by
    rw [(List.mem_replicate.mp member).2]
    rfl
  have zero : ∀ c ∈ ['0'], c.isDigit = true := List.forall_mem_singleton.mpr rfl
  have nothing : ∀ c ∈ ([] : List Char).head?, c.isDigit = false := fun c impossible =>
    nomatch impossible
  unfold Decimal.plain
  -- The point stands in front of the digits, behind them or among them.
  by_cases front : position ≤ 0
  · refine ⟨0, ?_⟩
    have places : ∀ c ∈ List.replicate (-position).toNat '0' ++ digits, c.isDigit = true :=
      fun c member => (List.mem_append.mp member).elim isZero (isDigit c)
    have read := unsigned?_point negative [] (List.cons_ne_nil _ _) zero places nothing
    rw [List.append_nil, List.singleton_append] at read
    rw [if_pos front, read, exponent?, Option.map_some, ← List.append_assoc,
      ← List.replicate_one, List.replicate_append_replicate, digitsValue_zeros_append,
      Nat.pow_zero, Nat.mul_one, List.length_append, List.length_replicate]
    congr 2
    omega
  by_cases behind : digits.length ≤ position.toNat
  · refine ⟨position.toNat - digits.length + 1, ?_⟩
    have whole : ∀ c ∈ digits ++ List.replicate (position.toNat - digits.length) '0',
        c.isDigit = true :=
      fun c member => (List.mem_append.mp member).elim (isDigit c) isZero
    have read := unsigned?_point negative []
      (fun empty => something (List.append_eq_nil_iff.mp empty).1) whole zero nothing
    rw [List.append_nil] at read
    rw [if_neg front, if_pos behind, read, exponent?, Option.map_some, List.append_assoc,
      ← List.replicate_one, List.replicate_append_replicate, digitsValue_append_zeros,
      List.length_replicate]
    congr 2
    omega
  · refine ⟨0, ?_⟩
    have someWhole : digits.take position.toNat ≠ [] := by
      rw [ne_eq, List.take_eq_nil_iff, not_or]
      exact ⟨by omega, something⟩
    have whole : ∀ c ∈ digits.take position.toNat, c.isDigit = true :=
      fun c member => isDigit c (List.mem_of_mem_take member)
    have places : ∀ c ∈ digits.drop position.toNat, c.isDigit = true :=
      fun c member => isDigit c (List.mem_of_mem_drop member)
    have read := unsigned?_point negative [] someWhole whole places nothing
    rw [List.append_nil] at read
    rw [if_neg front, if_neg behind, read, exponent?, Option.map_some, List.take_append_drop,
      Nat.pow_zero, Nat.mul_one, List.length_drop]
    congr 2
    omega

theorem exponent?_signedDigits (n : Int) : exponent? ('e' :: Decimal.signedDigits n) = some n := by
  rw [exponent?, if_pos (Or.inl rfl), integer?_signedDigits]

theorem unsigned?_scientific {digits : List Char} (position : Int) (something : digits ≠ [])
    (isDigit : ∀ c ∈ digits, c.isDigit = true) :
    unsigned? negative (Decimal.scientific digits position) =
      some (decimalValue negative (digitsValue digits) (position - digits.length)) := by
  have ends : ∀ c ∈ ('e' :: Decimal.signedDigits (position - 1)).head?, c.isDigit = false := by
    intro c same
    cases same
    rfl
  cases digits with
  | nil => exact absurd rfl something
  | cons first others =>
      have single : ∀ c ∈ [first], c.isDigit = true :=
        List.forall_mem_singleton.mpr (isDigit first List.mem_cons_self)
      cases others with
      | nil =>
          have read := unsigned?_whole negative (Decimal.signedDigits (position - 1))
            (List.cons_ne_nil _ _) single
          rw [exponent?_signedDigits, Option.map_some] at read
          exact read
      | cons second more =>
          have places : ∀ c ∈ second :: more, c.isDigit = true :=
            fun c member => isDigit c (List.mem_cons_of_mem _ member)
          have read := unsigned?_point negative _ (List.cons_ne_nil _ _) single places ends
          rw [exponent?_signedDigits, Option.map_some] at read
          refine read.trans ?_
          congr 2
          simp only [List.length_cons]
          omega

end Unsigned

/-! ### Doubles -/

theorem range_ofDouble {x : Double} (finite : x.isFinite = true) (nonzero : x.magnitude ≠ 0) :
    1 ≤ (RoundingInterval.ofDouble x).low ∧
      (∀ top, 310 ≤ top → (RoundingInterval.ofDouble x).high <
        10 ^ top * (RoundingInterval.ofDouble x).denominator) ∧
      ∀ bottom, 331 ≤ bottom → (RoundingInterval.ofDouble x).denominator < 10 ^ bottom := by
  have some := Double.significand_pos nonzero
  have bound := x.significand_lt
  have units : (RoundingInterval.ofDouble x).denominator = 4 * 1 <<< 1075 := rfl
  have grows {first last : Nat} (larger : first ≤ last) : 10 ^ first ≤ 10 ^ last :=
    Nat.pow_le_pow_right (by decide) larger
  have doubles {first last : Nat} (larger : first ≤ last) : 1 <<< first ≤ 1 <<< last := by
    rw [Nat.one_shiftLeft, Nat.one_shiftLeft]
    exact Nat.pow_le_pow_right Nat.two_pos larger
  rw [units]
  refine ⟨?_, fun top large => ?_, fun bottom large => ?_⟩
  · show 1 ≤ (4 * x.significand - _) * (1 <<< x.scale)
    apply Nat.mul_pos _ (Double.one_shiftLeft_pos _)
    split <;> omega
  · show (4 * x.significand + 2) * (1 <<< x.scale) < _
    calc (4 * x.significand + 2) * (1 <<< x.scale)
        ≤ 1 <<< 55 * 1 <<< 2046 := Nat.mul_le_mul (by omega) (doubles (Double.scale_le finite))
      _ < 10 ^ top * (4 * 1 <<< 1075) :=
          Nat.lt_of_lt_of_le (by decide +kernel) (Nat.mul_le_mul_right _ (grows large))
  · exact Nat.lt_of_lt_of_le (by decide +kernel) (grows large)

/-- A decimal in the rounding interval of a finite double other than zero is read as that
double. -/
theorem decimalValue_of_contains {x : Double} (finite : x.isFinite = true)
    (nonzero : x.magnitude ≠ 0) {digits : Nat} {exponent : Int}
    (contains : (RoundingInterval.ofDouble x).ContainsDecimal { digits, exponent }) :
    decimalValue x.negative digits exponent = x := by
  have rounded := Double.ofRatio_of_contains finite (Nat.pow_pos (by decide)) contains
  obtain ⟨above, below⟩ := contains.bounds
  obtain ⟨least, most, units⟩ := range_ofDouble finite nonzero
  dsimp only at above below rounded
  generalize (RoundingInterval.ofDouble x).low = low at *
  generalize (RoundingInterval.ofDouble x).high = high at *
  generalize (RoundingInterval.ofDouble x).denominator = denominator at *
  have tens (count : Nat) : 0 < 10 ^ count := Nat.pow_pos (by decide)
  have something : 0 < digits := by
    refine Nat.pos_of_ne_zero fun zero => ?_
    rw [zero, Nat.zero_mul, Nat.zero_mul] at above
    exact absurd above (Nat.not_le_of_lt (Nat.mul_pos least (tens _)))
  have written := Nat.lt_pow_length_toDigits digits
  have leading := Nat.pow_length_toDigits_le something
  have some := Nat.length_toDigits_pos (b := 10) (n := digits)
  unfold decimalValue
  dsimp only
  generalize (Nat.toDigits 10 digits).length = count at *
  rw [if_neg, if_neg]
  · exact rounded
  · -- A number of so many digits in front of the point is above all doubles.
    intro large
    have most := most (count - 1 + exponent.toNat - (-exponent).toNat) (by omega)
    have split : 10 ^ (count - 1 + exponent.toNat - (-exponent).toNat) * denominator *
        10 ^ (-exponent).toNat ≤ high * 10 ^ (-exponent).toNat := by
      calc 10 ^ (count - 1 + exponent.toNat - (-exponent).toNat) * denominator *
            10 ^ (-exponent).toNat
          = 10 ^ (count - 1 + exponent.toNat) * denominator := by
            rw [Nat.mul_right_comm, ← Nat.pow_add, Nat.sub_add_cancel (by omega)]
        _ = 10 ^ (count - 1) * 10 ^ exponent.toNat * denominator := by rw [Nat.pow_add]
        _ ≤ digits * 10 ^ exponent.toNat * denominator :=
            Nat.mul_le_mul_right _ (Nat.mul_le_mul_right _ leading)
        _ ≤ high * 10 ^ (-exponent).toNat := below
    exact absurd (Nat.le_of_mul_le_mul_right split (tens _)) (Nat.not_le_of_lt most)
  · -- A number with so many zeros behind the point is below all doubles.
    intro small
    have tiny : (count : Int) + exponent < -330 := small.resolve_left (Nat.ne_of_gt something)
    have whole : exponent.toNat = 0 := by omega
    rw [whole, Nat.pow_zero, Nat.mul_one] at above
    have units := units ((-exponent).toNat - count) (by omega)
    have split : 10 ^ ((-exponent).toNat - count) * 10 ^ count ≤ denominator * 10 ^ count := by
      calc 10 ^ ((-exponent).toNat - count) * 10 ^ count
          = 10 ^ (-exponent).toNat := by rw [← Nat.pow_add, Nat.sub_add_cancel (by omega)]
        _ ≤ low * 10 ^ (-exponent).toNat := Nat.le_mul_of_pos_left _ least
        _ ≤ digits * denominator := above
        _ ≤ 10 ^ count * denominator := Nat.mul_le_mul_right _ (Nat.le_of_lt written)
        _ = denominator * 10 ^ count := Nat.mul_comm ..
    exact absurd (Nat.le_of_mul_le_mul_right split (tens _)) (Nat.not_le_of_lt units)

/-- The digits of the shortest decimal, around its point, stand for the double. -/
theorem decimalValue_shortest {x : Double} (finite : x.isFinite = true) (nonzero : x.magnitude ≠ 0)
    (zeros : Nat) :
    decimalValue x.negative (digitsValue x.shortest.significantDigits * 10 ^ zeros)
      (x.shortest.pointPosition - x.shortest.significantDigits.length - zeros) = x := by
  obtain ⟨places, whole⟩ := x.shortest.exists_zeros
  have value := congrArg digitsValue whole
  rw [digitsValue_toDigits, digitsValue_append_zeros] at value
  have length := congrArg List.length whole
  rw [List.length_append, List.length_replicate] at length
  have exponent : x.shortest.pointPosition - x.shortest.significantDigits.length - places =
      x.shortest.exponent := by
    rw [Decimal.pointPosition, length]
    omega
  have contains : (RoundingInterval.ofDouble x).ContainsDecimal
      { digits := digitsValue x.shortest.significantDigits * 10 ^ places
        exponent := x.shortest.pointPosition - x.shortest.significantDigits.length - places } := by
    rw [← value, exponent]
    exact Double.contains_shortest nonzero
  exact decimalValue_of_contains finite nonzero (contains.rewritten zeros)

theorem toLower_of_isDigit {c : Char} (digit : c.isDigit = true) : c.toLower = c := by
  have code : c.val.toNat ≤ 57 := by
    simp only [Char.isDigit, Bool.and_eq_true, decide_eq_true_eq, UInt32.le_iff_toNat_le] at digit
    exact digit.2
  have other : ¬('A'.val ≤ c.val ∧ c.val ≤ 'Z'.val) := by
    intro upper
    have above := UInt32.le_iff_toNat_le.mp upper.1
    have capital : 'A'.val.toNat = 65 := rfl
    omega
  unfold Char.toLower
  split
  · contradiction
  · rfl

theorem double?_signed {negative : Bool} {body : List Char} {x : Double}
    (digit : ∀ c ∈ body.head?, c.isDigit = true) (read : unsigned? negative body = some x) :
    double? ((if negative then ['-'] else []) ++ body) = some x := by
  have word {text : String} (first : Char) {others : List Char}
      (spelled : text.toList = first :: others) (letter : first.isDigit = false) :
      String.ofList (body.map Char.toLower) ≠ text := by
    intro same
    rw [← same, String.toList_ofList] at spelled
    cases body with
    | nil => cases spelled
    | cons c rest =>
        have isDigit := digit c rfl
        have lower := (List.cons.inj spelled).1
        rw [toLower_of_isDigit isDigit] at lower
        rw [← lower, isDigit] at letter
        cases letter
  rw [double?, takeSign_append (bare_of_isDigit digit)]
  dsimp only
  rw [if_neg, if_neg, Bool.decide_coe, read]
  · exact word 'n' rfl rfl
  · intro either
    rcases either with same | same
    · exact word 'i' rfl rfl same
    · exact word 'i' rfl rfl same

theorem head_plain {digits : List Char} (position : Int) (something : digits ≠ [])
    (isDigit : ∀ c ∈ digits, c.isDigit = true) :
    ∀ c ∈ (Decimal.plain digits position).head?, c.isDigit = true := by
  intro c first
  unfold Decimal.plain at first
  cases digits with
  | nil => exact absurd rfl something
  | cons digit others =>
      have leading := isDigit digit List.mem_cons_self
      split at first
      · cases first
        rfl
      · split at first
        · cases first
          exact leading
        · rename_i behind _
          rw [List.take_cons (by omega)] at first
          cases first
          exact leading

theorem head_scientific {digits : List Char} (position : Int) (something : digits ≠ [])
    (isDigit : ∀ c ∈ digits, c.isDigit = true) :
    ∀ c ∈ (Decimal.scientific digits position).head?, c.isDigit = true := by
  intro c first
  cases digits with
  | nil => exact absurd rfl something
  | cons digit others =>
      have leading := isDigit digit List.mem_cons_self
      cases others with
      | nil =>
          cases first
          exact leading
      | cons second more =>
          cases first
          exact leading

theorem significantDigits_ne_nil {x : Double} (finite : x.isFinite = true)
    (nonzero : x.magnitude ≠ 0) : x.shortest.significantDigits ≠ [] := by
  intro nothing
  have same := decimalValue_shortest finite nonzero 0
  rw [nothing, Nat.pow_zero, Nat.mul_one, decimalValue,
    if_pos (Or.inl (show digitsValue [] = 0 from rfl))] at same
  have empty : ∀ negative, (Double.zero negative).magnitude = 0 := by decide
  apply nonzero
  rw [← same]
  exact empty _

/-- A double that is a number is read back from its text bit by bit. -/
theorem double?_written {x : Double} (number : x.isNaN = false) :
    double? (x.written .literal) = some x := by
  unfold Double.written
  dsimp only
  rw [if_neg (Bool.eq_false_iff.mp number)]
  by_cases infinite : x.isInfinite = true
  · have inf : ∀ negative : Bool, double? ((if negative then ['-'] else []) ++ ['i', 'n', 'f']) =
        some (Double.infinity negative) := by decide
    rw [if_pos infinite]
    exact (inf x.negative).trans (congrArg some (Double.infinity_of_isInfinite infinite))
  rw [if_neg infinite]
  have finite := Double.isFinite_of_isNaN number (Bool.eq_false_iff.mpr infinite)
  by_cases zero : x.magnitude = 0
  · have nought : ∀ negative : Bool, double? ((if negative then ['-'] else []) ++ ['0', '.', '0']) =
        some (Double.zero negative) := by decide
    rw [if_pos zero]
    exact (nought x.negative).trans (congrArg some (Double.zero_of_magnitude zero))
  rw [if_neg zero]
  have something := significantDigits_ne_nil finite zero
  have isDigit (c : Char) (member : c ∈ x.shortest.significantDigits) : c.isDigit = true :=
    Decimal.isDigit_significantDigits member
  by_cases plain : NumeralStyle.literal.firstPlainPosition ≤ x.shortest.pointPosition ∧
      x.shortest.pointPosition ≤ NumeralStyle.literal.lastPlainPosition
  · obtain ⟨zeros, read⟩ :=
      unsigned?_plain x.negative x.shortest.pointPosition something isDigit
    rw [decimalValue_shortest finite zero] at read
    rw [if_pos plain]
    exact double?_signed (head_plain _ something isDigit) read
  · have read :=
      unsigned?_scientific x.negative x.shortest.pointPosition something isDigit
    have value := decimalValue_shortest finite zero 0
    rw [Nat.pow_zero, Nat.mul_one, Int.natCast_zero, Int.sub_zero] at value
    rw [value] at read
    rw [if_neg plain]
    exact double?_signed (head_scientific _ something isDigit) read

/-- Every NaN is read back as the NaN without sign and payload. -/
theorem double?_nan {x : Double} (nan : x.isNaN = true) :
    double? (x.written .literal) = some (Double.notANumber false) := by
  rw [Double.written, if_pos nan]
  rfl

end Numeral

theorem Double.written_ne_nil (x : Double) : x.written .literal ≠ [] := by
  intro nothing
  have read : ∃ y, Numeral.double? (x.written .literal) = some y := by
    cases nan : x.isNaN with
    | true => exact ⟨_, Numeral.double?_nan nan⟩
    | false => exact ⟨_, Numeral.double?_written nan⟩
  obtain ⟨y, read⟩ := read
  rw [nothing] at read
  cases read

end ValueChannels
