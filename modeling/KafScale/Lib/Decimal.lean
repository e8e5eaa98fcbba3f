import KafScale.Lib.WireWord
import Mathlib.Data.Nat.Digits.Defs

/-!
Decimal integers as Go writes and reads them: `strconv.FormatInt(n, 10)`,
which is what `%d` prints, and `strconv.ParseInt(s, 10, bits)`. Every number
reads back as itself, so the text of a number names it.
-/
namespace Decimal
open WireWord

def digitByte (d : Nat) : UInt8 := UInt8.ofNat (0x30 + d)

def isDigit (b : UInt8) : Bool := 0x30 ≤ b.toNat && b.toNat ≤ 0x39

def digitValue (b : UInt8) : Nat := b.toNat - 0x30

/-- The decimal digits of `n`, most significant first; zero is written `0`. -/
def natDigits (n : Nat) : Bytes :=
  if n = 0 then [digitByte 0] else (Nat.digits 10 n).reverse.map digitByte

/-- `strconv.FormatInt(n, 10)`. -/
def formatInt (n : Int) : Bytes :=
  if n < 0 then 0x2D :: natDigits n.natAbs else natDigits n.natAbs

/-- The value of a run of decimal digits, most significant first. -/
def digitsValue (ds : Bytes) : Nat := ds.foldl (fun acc b => acc * 10 + digitValue b) 0

/-- The sign `ParseInt` strips from the front, and what follows it. -/
def splitSign : Bytes → Bool × Bytes
  | [] => (false, [])
  | b :: rest => if b = 0x2D then (true, rest) else if b = 0x2B then (false, rest) else (false, b :: rest)

/-- `strconv.ParseInt(s, 10, bits)`: an optional sign and at least one decimal
    digit, with a value that fits `bits` bits; anything else is an error. -/
def parseInt (bits : Nat) (s : Bytes) : Option Int :=
  let (neg, digits) := splitSign s
  if digits = [] ∨ !digits.all isDigit then none
  else
    let n : Int := if neg then -(digitsValue digits : Int) else digitsValue digits
    if InRange bits n then some n else none

theorem digitValue_digitByte {d : Nat} (small : d < 10) : digitValue (digitByte d) = d := by
  simp only [digitValue, digitByte, UInt8.toNat_ofNat']
  omega

theorem isDigit_digitByte {d : Nat} (small : d < 10) : isDigit (digitByte d) = true := by
  simp only [isDigit, digitByte, UInt8.toNat_ofNat', Bool.and_eq_true, decide_eq_true_eq]
  omega

theorem digitsValue_append_singleton (ds : Bytes) (b : UInt8) :
    digitsValue (ds ++ [b]) = digitsValue ds * 10 + digitValue b := by
  simp [digitsValue, List.foldl_append]

theorem digitsValue_digits (ds : List Nat) (small : ∀ d ∈ ds, d < 10) :
    digitsValue (ds.reverse.map digitByte) = Nat.ofDigits 10 ds := by
  induction ds with
  | nil => rfl
  | cons d ds ih =>
    have first : d < 10 := small d List.mem_cons_self
    rw [List.reverse_cons, List.map_append, List.map_singleton, digitsValue_append_singleton,
      ih fun e member => small e (List.mem_cons_of_mem d member), digitValue_digitByte first,
      Nat.ofDigits_cons]
    omega

theorem natDigits_value (n : Nat) : digitsValue (natDigits n) = n := by
  unfold natDigits
  split
  · rename_i zero
    rw [zero]
    rfl
  · rw [digitsValue_digits _ fun d member => Nat.digits_lt_base (by decide) member, Nat.ofDigits_digits]

theorem natDigits_digits (n : Nat) : ∀ b ∈ natDigits n, isDigit b = true := by
  intro b member
  unfold natDigits at member
  split at member
  · rw [List.mem_singleton.mp member]
    rfl
  · obtain ⟨d, inside, rfl⟩ := List.mem_map.mp member
    exact isDigit_digitByte (Nat.digits_lt_base (by decide) (List.mem_reverse.mp inside))

theorem natDigits_ne_nil (n : Nat) : natDigits n ≠ [] := by
  unfold natDigits
  split
  · exact List.cons_ne_nil _ _
  · rename_i nonzero
    simpa [Nat.digits_eq_nil_iff_eq_zero] using nonzero

theorem splitSign_of_digit {b : UInt8} (digit : isDigit b = true) (rest : Bytes) :
    splitSign (b :: rest) = (false, b :: rest) := by
  have low : 0x30 ≤ b.toNat := by
    simp only [isDigit, Bool.and_eq_true, decide_eq_true_eq] at digit
    exact digit.1
  have notMinus : b ≠ 0x2D := fun same => by rw [same] at low; exact absurd low (by decide)
  have notPlus : b ≠ 0x2B := fun same => by rw [same] at low; exact absurd low (by decide)
  simp only [splitSign, if_neg notMinus, if_neg notPlus]

theorem splitSign_natDigits (n : Nat) : splitSign (natDigits n) = (false, natDigits n) := by
  obtain ⟨b, rest, eq⟩ := List.exists_cons_of_ne_nil (natDigits_ne_nil n)
  rw [eq]
  exact splitSign_of_digit (natDigits_digits n b (by rw [eq]; exact List.mem_cons_self)) rest

theorem parseInt_formatInt {bits : Nat} {n : Int} (range : InRange bits n) :
    parseInt bits (formatInt n) = some n := by
  have digits : ¬ (natDigits n.natAbs = [] ∨ !(natDigits n.natAbs).all isDigit) := by
    rw [List.all_eq_true.mpr (natDigits_digits n.natAbs)]
    simpa using natDigits_ne_nil n.natAbs
  by_cases negative : n < 0
  · have stripped : splitSign (formatInt n) = (true, natDigits n.natAbs) := by
      rw [formatInt, if_pos negative]
      rfl
    have signed : -((n.natAbs : Nat) : Int) = n := by omega
    simp only [parseInt, stripped, if_neg digits, if_true, natDigits_value, signed, if_pos range]
  · have stripped : splitSign (formatInt n) = (false, natDigits n.natAbs) := by
      rw [formatInt, if_neg negative]
      exact splitSign_natDigits _
    have unsigned : ((n.natAbs : Nat) : Int) = n := by omega
    simp only [parseInt, stripped, if_neg digits, Bool.false_eq_true, if_false, natDigits_value, unsigned,
      if_pos range]

theorem inRange_of_natAbs_lt {x : Int} {bits : Nat} (small : x.natAbs < bits) : InRange bits x := by
  have grow : ((bits - 1 : Nat) : Int) < 2 ^ (bits - 1) := by exact_mod_cast Nat.lt_two_pow_self
  unfold InRange
  omega

theorem formatInt_injective {a b : Int} (same : formatInt a = formatInt b) : a = b := by
  have readA := parseInt_formatInt (inRange_of_natAbs_lt (by omega : a.natAbs < a.natAbs + b.natAbs + 1))
  have readB := parseInt_formatInt (inRange_of_natAbs_lt (by omega : b.natAbs < a.natAbs + b.natAbs + 1))
  rw [same, readB] at readA
  exact (Option.some.inj readA).symm

theorem formatInt_bytes (n : Int) : ∀ c ∈ formatInt n, c = 0x2D ∨ isDigit c = true := by
  intro c member
  unfold formatInt at member
  split at member
  · rcases List.mem_cons.mp member with minus | digit
    · exact Or.inl minus
    · exact Or.inr (natDigits_digits _ c digit)
  · exact Or.inr (natDigits_digits _ c member)

theorem formatInt_not_mem {b : UInt8} (notMinus : b ≠ 0x2D) (notDigit : isDigit b = false) (n : Int) :
    b ∉ formatInt n := by
  intro member
  rcases formatInt_bytes n b member with minus | digit
  · exact notMinus minus
  · rw [notDigit] at digit
    cases digit

theorem formatInt_getLast? (n : Int) : ∃ d, (formatInt n).getLast? = some d ∧ isDigit d = true := by
  obtain ⟨d, last⟩ := Option.isSome_iff_exists.mp (List.getLast?_isSome.mpr (natDigits_ne_nil n.natAbs))
  refine ⟨d, ?_, natDigits_digits _ d (List.mem_of_getLast? last)⟩
  unfold formatInt
  split
  · rw [← List.singleton_append, List.getLast?_append, last]
    rfl
  · exact last

/-! ### Zero-padded numbers -/

/-- `ds` behind as many `0` digits as bring it to `width` bytes; a longer `ds`
    is left whole. -/
def zeroPad (width : Nat) (ds : Bytes) : Bytes := List.replicate (width - ds.length) (digitByte 0) ++ ds

/-- `fmt.Sprintf("%0*d", width, n)`: the sign, then zeros up to `width` bytes in
    all, then the digits. -/
def formatZeroPadded (width : Nat) (n : Int) : Bytes :=
  if n < 0 then 0x2D :: zeroPad (width - 1) (natDigits n.natAbs) else zeroPad width (natDigits n.natAbs)

theorem digitsValue_zeroPad (width : Nat) (ds : Bytes) : digitsValue (zeroPad width ds) = digitsValue ds := by
  have zeros : ∀ k, (List.replicate k (digitByte 0)).foldl (fun acc b => acc * 10 + digitValue b) 0 = 0 := by
    intro k
    induction k with
    | zero => rfl
    | succ k ih => rw [List.replicate_succ', List.foldl_append, ih]; rfl
  simp only [digitsValue, zeroPad, List.foldl_append, zeros]

theorem zeroPad_natDigits_digits (width n : Nat) : ∀ b ∈ zeroPad width (natDigits n), isDigit b = true := by
  intro b member
  rcases List.mem_append.mp member with zero | digit
  · rw [List.eq_of_mem_replicate zero]
    rfl
  · exact natDigits_digits n b digit

theorem zeroPad_natDigits_ne_nil (width n : Nat) : zeroPad width (natDigits n) ≠ [] :=
  List.append_ne_nil_of_right_ne_nil _ (natDigits_ne_nil n)

theorem splitSign_zeroPad (width n : Nat) :
    splitSign (zeroPad width (natDigits n)) = (false, zeroPad width (natDigits n)) := by
  obtain ⟨b, rest, eq⟩ := List.exists_cons_of_ne_nil (zeroPad_natDigits_ne_nil width n)
  rw [eq]
  exact splitSign_of_digit (zeroPad_natDigits_digits width n b (by rw [eq]; exact List.mem_cons_self)) rest

theorem parseInt_formatZeroPadded {bits : Nat} (width : Nat) {n : Int} (range : InRange bits n) :
    parseInt bits (formatZeroPadded width n) = some n := by
  have digits (w : Nat) : ¬ (zeroPad w (natDigits n.natAbs) = [] ∨ !(zeroPad w (natDigits n.natAbs)).all isDigit) := by
    rw [List.all_eq_true.mpr (zeroPad_natDigits_digits w n.natAbs)]
    simpa using zeroPad_natDigits_ne_nil w n.natAbs
  by_cases negative : n < 0
  · have stripped : splitSign (formatZeroPadded width n) = (true, zeroPad (width - 1) (natDigits n.natAbs)) := by
      rw [formatZeroPadded, if_pos negative]
      rfl
    have signed : -((n.natAbs : Nat) : Int) = n := by omega
    simp only [parseInt, stripped, if_neg (digits _), if_true, digitsValue_zeroPad, natDigits_value, signed,
      if_pos range]
  · have stripped : splitSign (formatZeroPadded width n) = (false, zeroPad width (natDigits n.natAbs)) := by
      rw [formatZeroPadded, if_neg negative]
      exact splitSign_zeroPad _ _
    have unsigned : ((n.natAbs : Nat) : Int) = n := by omega
    simp only [parseInt, stripped, if_neg (digits _), Bool.false_eq_true, if_false, digitsValue_zeroPad,
      natDigits_value, unsigned, if_pos range]

theorem formatZeroPadded_injective (width : Nat) {a b : Int} (same : formatZeroPadded width a = formatZeroPadded width b) :
    a = b := by
  have readA := parseInt_formatZeroPadded width
    (inRange_of_natAbs_lt (by omega : a.natAbs < a.natAbs + b.natAbs + 1))
  have readB := parseInt_formatZeroPadded width
    (inRange_of_natAbs_lt (by omega : b.natAbs < a.natAbs + b.natAbs + 1))
  rw [same, readB] at readA
  exact (Option.some.inj readA).symm

theorem formatZeroPadded_ne_nil (width : Nat) (n : Int) : formatZeroPadded width n ≠ [] := by
  unfold formatZeroPadded
  split
  · exact List.cons_ne_nil _ _
  · exact zeroPad_natDigits_ne_nil _ _

theorem formatZeroPadded_bytes (width : Nat) (n : Int) :
    ∀ c ∈ formatZeroPadded width n, c = 0x2D ∨ isDigit c = true := by
  intro c member
  unfold formatZeroPadded at member
  split at member
  · rcases List.mem_cons.mp member with minus | digit
    · exact Or.inl minus
    · exact Or.inr (zeroPad_natDigits_digits _ _ c digit)
  · exact Or.inr (zeroPad_natDigits_digits _ _ c member)

end Decimal
