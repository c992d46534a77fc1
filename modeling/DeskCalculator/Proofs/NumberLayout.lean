import DeskCalculator.Display
import DeskCalculator.Proofs.FewestDigits
import DeskCalculator.Proofs.Rereading

/-!
# DeskCalculator.Proofs.NumberLayout — where the digits of a displayed number are put

The digits that are displayed are the fewest that are read back as the number, and the nearest of
these.  Where they are put is told by the position of the point: they stand in place, filled up with
zeros, as long as there are no more than 21 digits before the point, and no more than five zeros
between it and the first digit; otherwise there is an exponent.

The same is told by the size of the number, compared with `1e21` and with `1e-6`.  The second of
these is no power of ten, but the number nearest to one, so that the comparison is carried over
through what is rounded to it.

* `layout`: the places of the digits.
* `bySize`: the number written in one of two ways, told by its size.
* `point_le_iff`: the size of a number tells the position of its point.
* `number_layout`: the text of each number.
-/

namespace DeskCalculator

open Binary64

namespace Display

/-- The decimal is read as the number, up to its sign. -/
def ReadAs (x : Float) (d : Decimal) : Prop := Numeral.scientific d.digits d.exponent = x.abs

/-- The minus sign of a number that has one. -/
def minus (x : Float) : List Char := if isNegative x then ['-'] else []

/-- The text of some digits, of which the point stands behind the first `n`, or before them if `n`
is negative. -/
def layout (digits : List Char) (n : Int) : List Char :=
  if digits.length ≤ n ∧ n ≤ 21 then digits ++ List.replicate (n - digits.length).toNat '0'
  else if 0 < n ∧ n ≤ 21 then digits.take n.toNat ++ '.' :: digits.drop n.toNat
  else if -6 < n ∧ n ≤ 0 then '0' :: '.' :: (List.replicate (-n).toNat '0' ++ digits)
  else
    digits.take 1 ++ ((if 1 < digits.length then '.' :: digits.drop 1 else []) ++
      'e' :: (if n - 1 < 0 then '-' else '+') :: Nat.toDigits 10 (n - 1).natAbs)

/-! ## Numbers by their size -/

/-- Whether a number is written with an exponent for its size. -/
def isExtreme (x : Float) : Bool := 1e21 ≤ x.abs || x.abs < 1e-6

/-- Numbers with an exponent, which is signed only if it is negative. -/
def exponential : Decimal.Style := { Decimal.plain with inPlace := fun _ => false }

/-- A plus sign behind the first `e`. -/
def plusBehindE : List Char → List Char
  | [] => []
  | c :: cs => if c = 'e' then 'e' :: '+' :: cs else c :: plusBehindE cs

/-- The text of a number with an exponent, with a plus sign put in where the exponent has no minus
sign. -/
def signExponent (text : List Char) : List Char :=
  if "e-".toList <:+: text then text else plusBehindE text

/-- The text of a number that is written with an exponent or in place, as its size tells. -/
def bySize (x : Float) : String :=
  if x.isNaN then "NaN"
  else if x.isInf then if 0 < x then "Infinity" else "-Infinity"
  else if x == 0 then "0"
  else if isExtreme x then .ofList (signExponent (exponential.chars x))
  else Decimal.plain.write x

end Display

/-! ## Texts -/

namespace Display

section

variable {before after : List Char}

theorem plusBehindE_append (h : 'e' ∉ before) (after : List Char) :
    plusBehindE (before ++ 'e' :: after) = before ++ 'e' :: '+' :: after := by
  induction before with
  | nil => rfl
  | cons c before ih =>
    obtain ⟨hc, hbefore⟩ := not_or.mp (List.mem_cons.not.mp h)
    have hstep : plusBehindE (c :: (before ++ 'e' :: after)) =
        c :: plusBehindE (before ++ 'e' :: after) := if_neg fun h => hc h.symm
    rw [List.cons_append, hstep, ih hbefore, List.cons_append]

/-- With one `e` in a text, a minus sign stands behind it or not. -/
theorem e_minus_infix_iff (h : 'e' ∉ before) (h' : 'e' ∉ after) :
    "e-".toList <:+: before ++ 'e' :: after ↔ after.head? = some '-' := by
  have hletters : "e-".toList = ['e', '-'] := rfl
  rw [hletters]
  induction before with
  | nil =>
    have hafter : ¬ ['e', '-'] <:+: after := fun hin => h' (hin.subset List.mem_cons_self)
    rw [List.nil_append, List.infix_cons_iff, or_iff_left hafter, List.cons_prefix_cons]
    cases after with
    | nil => simp
    | cons c after => simp [eq_comm]
  | cons c before ih =>
    obtain ⟨hc, hbefore⟩ := not_or.mp (List.mem_cons.not.mp h)
    have hfirst : ¬ ['e', '-'] <+: c :: (before ++ 'e' :: after) :=
      fun hin => hc (List.cons_prefix_cons.mp hin).1
    rw [List.cons_append, List.infix_cons_iff, or_iff_right hfirst]
    exact ih hbefore

end

end Display

namespace Decimal

open Numeral (AllDigits)
open Display (layout signExponent plusBehindE_append e_minus_infix_iff)

section

variable {digits : List Char} {point : Int}

theorem chars_placed (sign : Option Sign) (hne : digits ≠ []) (h : -6 < point ∧ point ≤ 21) :
    Numeral.chars ⟨sign, placed none digits point⟩ = writtenSign sign ++ layout digits point := by
  have hlength := List.length_pos_of_ne_nil hne
  by_cases hpoint : point ≤ 0
  · have hlayout : layout digits point =
        '0' :: '.' :: (List.replicate (-point).toNat '0' ++ digits) := by
      unfold layout
      rw [if_neg (by omega), if_neg (by omega), if_pos ⟨h.1, hpoint⟩]
    simp [Numeral.chars, placed, hpoint, hlayout]
  · obtain ⟨n, rfl⟩ : ∃ n : Nat, point = n := ⟨point.toNat, by omega⟩
    have hpos : n ≠ 0 := by omega
    by_cases hfits : digits.length ≤ n
    · have hlayout : layout digits n = digits ++ List.replicate (n - digits.length) '0' := by
        have hzeros : ((n : Int) - digits.length).toNat = n - digits.length := by omega
        unfold layout
        rw [if_pos ⟨by omega, h.2⟩, hzeros]
      simp [Numeral.chars, placed, hpos, hfits, hlayout]
    · have hlayout : layout digits n = digits.take n ++ '.' :: digits.drop n := by
        unfold layout
        rw [if_neg (by omega), if_pos ⟨by omega, h.2⟩, Int.toNat_natCast]
      simp [Numeral.chars, placed, hpos, hfits, hlayout]

/-- What stands before the exponent. -/
def mantissa (digits : List Char) : List Char :=
  digits.take 1 ++ if 1 < digits.length then '.' :: digits.drop 1 else []

theorem chars_scaled (sign exponentSign : Option Sign) :
    Numeral.chars ⟨sign, scaled exponentSign digits point⟩ =
      writtenSign sign ++ mantissa digits ++ 'e' ::
        (writtenSign (if point - 1 < 0 then some .negative else exponentSign) ++
          Nat.toDigits 10 (point - 1).natAbs) := by
  by_cases hlength : digits.length ≤ 1
  · have hlong : ¬ 1 < digits.length := by omega
    simp [Numeral.chars, scaled, mantissa, Numeral.Exponent.chars, hlength, hlong]
  · have hlong : 1 < digits.length := by omega
    simp [Numeral.chars, scaled, mantissa, Numeral.Exponent.chars, hlength, hlong]

theorem layout_scaled (h : ¬ (-6 < point ∧ point ≤ 21)) :
    layout digits point = mantissa digits ++ 'e' :: (if point - 1 < 0 then '-' else '+') ::
      Nat.toDigits 10 (point - 1).natAbs := by
  unfold layout
  rw [if_neg (by omega), if_neg (by omega), if_neg (by omega), mantissa, List.append_assoc]

/-- The style of the display, with its exponents that are signed either way. -/
theorem display_chars (s : Sign) (d : Decimal) :
    Numeral.chars ⟨numberSign s, display.magnitude d⟩ =
      writtenSign (numberSign s) ++ layout d.chars d.point := by
  have hstyle : display.inPlace d.point = true ↔ -6 < d.point ∧ d.point ≤ 21 := decide_eq_true_iff
  unfold Style.magnitude
  by_cases hplace : -6 < d.point ∧ d.point ≤ 21
  · rw [if_pos (hstyle.mpr hplace)]
    exact chars_placed _ d.chars_ne_nil hplace
  · rw [if_neg (hstyle.not.mpr hplace), chars_scaled, layout_scaled hplace, List.append_assoc]
    have hsign : writtenSign (if d.point - 1 < 0 then some .negative else display.exponentSign) =
        [if d.point - 1 < 0 then '-' else '+'] := by
      split <;> rfl
    rw [hsign, List.cons_append, List.nil_append]

theorem e_notMem_of_allDigits (h : AllDigits digits) : 'e' ∉ digits := fun hmem =>
  absurd (h 'e' hmem) (by decide)

theorem e_notMem_mantissa (h : AllDigits digits) : 'e' ∉ mantissa digits := by
  have hdigits := e_notMem_of_allDigits h
  intro hmem
  rcases List.mem_append.mp hmem with hfirst | hothers
  · exact hdigits (List.mem_of_mem_take hfirst)
  · split at hothers
    · rcases List.mem_cons.mp hothers with hpoint | hothers
      · cases hpoint
      · exact hdigits (List.mem_of_mem_drop hothers)
    · cases hothers

/-- With a plus sign put in, the exponent is signed either way. -/
theorem signExponent_scaled (s : Sign) (hdigits : AllDigits digits)
    (h : ¬ (-6 < point ∧ point ≤ 21)) :
    signExponent (Numeral.chars ⟨numberSign s, scaled none digits point⟩) =
      writtenSign (numberSign s) ++ layout digits point := by
  have hsign : 'e' ∉ writtenSign (numberSign s) := by cases s <;> decide
  have hbefore : 'e' ∉ writtenSign (numberSign s) ++ mantissa digits := by
    simp [hsign, e_notMem_mantissa hdigits]
  have hexponent (n : Nat) : AllDigits (Nat.toDigits 10 n) :=
    fun c hc => Nat.isDigit_of_mem_toDigits (by decide) (by decide) hc
  have hafter (n : Nat) : 'e' ∉ Nat.toDigits 10 n := e_notMem_of_allDigits (hexponent n)
  have hunsigned : writtenSign none = [] := rfl
  rw [chars_scaled, layout_scaled h, ← List.append_assoc]
  unfold signExponent
  by_cases hnegative : point - 1 < 0
  · rw [if_pos hnegative, if_pos hnegative]
    refine if_pos ((e_minus_infix_iff hbefore ?_).mpr rfl)
    simp [writtenSign, hafter]
  · rw [if_neg hnegative, if_neg hnegative, hunsigned, List.nil_append, if_neg]
    · exact plusBehindE_append hbefore _
    · rw [e_minus_infix_iff hbefore (hafter _)]
      intro hhead
      exact absurd (hexponent _ _ (List.mem_of_head? hhead)) (by decide)

end

/-! ## Size and position -/

/-- The size of a number tells whether its point is beyond a place, if the power of ten there is the
decimal that is written for the number that it is rounded to. -/
theorem point_le_iff {tie : Tie} {m M : Nat} {q Q k : Int} (hp : Proper m q) (hP : Proper M Q)
    (hten : Rounds M Q (10 ^ k)) (hpoint : (shortest tie M Q).point = k + 1) :
    (m : ℚ) * 2 ^ q < M * 2 ^ Q ↔ (shortest tie m q).point ≤ k := by
  obtain ⟨hpos, hrounds⟩ := shortest_rounds tie hp.pos q
  have hone : (1 : ℚ) < 10 := by norm_num
  constructor
  · intro hlt
    have hbelow := hrounds.lt_of_lt hp.shaped hP.shaped hten hlt
    have := (zpow_lt_zpow_iff_right₀ hone).mp ((point_le_toRat hpos).trans_lt hbelow)
    omega
  · intro hle
    by_contra hnot
    rcases (not_lt.mp hnot).eq_or_lt with heq | hlt
    · -- the two are the same number, and its point is beyond the place
      obtain ⟨rfl, rfl⟩ := hp.unique hP heq.symm
      omega
    · have habove := hten.lt_of_lt hP.shaped hp.shaped hrounds hlt
      have := (zpow_lt_zpow_iff_right₀ hone).mp (habove.trans (toRat_lt_point _))
      omega

end Decimal

namespace Display

open Decimal (Fewest shortest numberSign)

section

variable {x : Float} {s : Sign} {m : Nat} {q : Int}

section

variable {y : Float} {M : Nat} {Q k : Int} (hp : Proper m q) (hx : parts x = .finite s m q hp.pos)
  (hP : Proper M Q) (hy : parts y = .finite .positive M Q hP.pos)
  (hten : y = Numeral.scientific 1 k) (hpoint : (shortest .up M Q).point = k + 1)
include hp hx hP hy hten hpoint

/-- A number is compared with the one that a power of ten is read as by the position of its point. -/
theorem abs_lt_iff : x.abs < y ↔ (shortest .up m q).point ≤ k := by
  have hrounds : Rounds M Q (10 ^ k) := by
    have hnearest := Numeral.nearest_iff.mpr hten
    rw [← ofParts_parts y, hy, Nat.cast_one, one_mul] at hnearest
    exact (nearest_ofParts_iff hP).mp hnearest
  have hsize : Denotes x.abs (m * 2 ^ q) := ⟨m, q, hp, parts_abs hp hx, rfl⟩
  rw [hsize.lt_iff ⟨M, Q, hP, hy, rfl⟩]
  exact Decimal.point_le_iff hp hP hrounds hpoint

theorem le_abs_iff : y ≤ x.abs ↔ k < (shortest .up m q).point := by
  have hsize : Denotes x.abs (m * 2 ^ q) := ⟨m, q, hp, parts_abs hp hx, rfl⟩
  have hpower : Denotes y (M * 2 ^ Q) := ⟨M, Q, hP, hy, rfl⟩
  rw [hpower.le_iff hsize, ← not_lt, ← hsize.lt_iff hpower,
    abs_lt_iff hp hx hP hy hten hpoint, not_le]

end

/-! The numbers that `1e21` and `1e-6` are read as, and what is written for them. -/

theorem proper_large : Proper 7629394531250000 17 := by
  constructor <;> norm_num

theorem proper_small : Proper 4722366482869645 (-72) := by
  constructor <;> norm_num

theorem shortest_large : shortest .up 7629394531250000 17 = ⟨1, 21⟩ := by
  decide +kernel

theorem shortest_small : shortest .up 4722366482869645 (-72) = ⟨1, -6⟩ := by
  decide +kernel

variable (hp : Proper m q) (hx : parts x = .finite s m q hp.pos)
include hp hx

/-- **The size of a number tells what the position of its point does.** -/
theorem isExtreme_iff : isExtreme x ↔
    ¬ (-6 < (shortest .up m q).point ∧ (shortest .up m q).point ≤ 21) := by
  have hlarge : (1e21 : Float) ≤ x.abs ↔ 21 < (shortest .up m q).point :=
    le_abs_iff hp hx proper_large rfl rfl (congrArg Decimal.point shortest_large)
  have hsmall : x.abs < 1e-6 ↔ (shortest .up m q).point ≤ -6 :=
    abs_lt_iff hp hx proper_small rfl rfl (congrArg Decimal.point shortest_small)
  rw [isExtreme, Bool.or_eq_true, decide_eq_true_iff, decide_eq_true_iff, hlarge, hsmall]
  omega

theorem readAs_iff (d : Decimal) : ReadAs x d ↔ Rounds m q d.toRat := by
  have habs : x.abs = ofParts (.finite .positive m q hp.pos) := by
    rw [← ofParts_parts x.abs, parts_abs hp hx]
  rw [ReadAs, habs, eq_comm, ← Numeral.nearest_iff]
  exact nearest_ofParts_iff hp

/-- The digits of a number are the fewest that are read as it, and the nearest of these. -/
theorem fewest_shortest : Fewest (ReadAs x) |toRat x| (shortest .up m q) := by
  have hreads : ReadAs x = fun d => Rounds m q d.toRat :=
    funext fun d => propext (readAs_iff hp hx d)
  have hpos : (0 : ℚ) ≤ m * 2 ^ q := by positivity
  rw [hreads, toRat_of_parts hx, abs_mul, abs_unit, one_mul, abs_of_nonneg hpos]
  exact Decimal.shortest_fewest hp

theorem minus_eq : minus x = writtenSign (numberSign s) := by
  rw [minus, isNegative, hx]
  cases s <;> rfl

theorem number_of_parts : number x =
    .ofList (minus x ++ layout (shortest .up m q).chars (shortest .up m q).point) := by
  have hchars : Decimal.display.chars x = (Decimal.display.finite s m q).chars := by
    rw [Decimal.Style.chars, hx]
  rw [number, Decimal.Style.write, hchars, minus_eq hp hx]
  exact congrArg String.ofList (Decimal.display_chars s _)

theorem bySize_of_parts : bySize x =
    .ofList (minus x ++ layout (shortest .up m q).chars (shortest .up m q).point) := by
  have hnan : x.isNaN = false := by
    show (parts x).isNaN = false
    rw [hx]
    rfl
  have hinf : x.isInf = false := by
    show (parts x).isInf = false
    rw [hx]
    rfl
  have hzero : ¬ (x == 0) = true := by
    intro hzero
    obtain ⟨s', rfl⟩ := beq_zero_iff.mp hzero
    rw [parts_zero] at hx
    cases hx
  rw [bySize, hnan, hinf, if_neg Bool.false_ne_true, if_neg Bool.false_ne_true, if_neg hzero,
    minus_eq hp hx]
  by_cases hplace : -6 < (shortest .up m q).point ∧ (shortest .up m q).point ≤ 21
  · rw [if_neg ((isExtreme_iff hp hx).not.mpr (not_not.mpr hplace)), Decimal.Style.write,
      Decimal.Style.chars, hx]
    exact congrArg String.ofList (Decimal.chars_placed _ (Decimal.chars_ne_nil _) hplace)
  · rw [if_pos ((isExtreme_iff hp hx).mpr hplace), Decimal.Style.chars, hx]
    exact congrArg String.ofList
      (Decimal.signExponent_scaled s (Decimal.allDigits_chars _) hplace)

end

/-- What is displayed is told by the size of the number. -/
theorem number_eq_bySize (x : Float) : number x = bySize x := by
  obtain rfl | ⟨s, rfl⟩ | ⟨s, rfl⟩ | ⟨s, m, q, hp, hx⟩ := number_cases x
  · decide +kernel
  · cases s <;> decide +kernel
  · cases s <;> decide +kernel
  · rw [number_of_parts hp hx, bySize_of_parts hp hx]

/-- A finite number that is not zero has a significand. -/
theorem exists_parts {x : Float} (hfinite : x.isFinite) (hzero : ¬ x == 0) :
    ∃ s m q, ∃ hp : Proper m q, parts x = .finite s m q hp.pos := by
  obtain rfl | ⟨s, rfl⟩ | ⟨s, rfl⟩ | hparts := number_cases x
  · exact absurd hfinite (by decide +kernel)
  · cases s <;> exact absurd hfinite (by decide +kernel)
  · exact absurd (beq_zero_iff.mpr ⟨s, rfl⟩) hzero
  · exact hparts

/-- **Where the digits of a number are put.**  Every number is displayed as its size tells.  For one
that is finite and not zero there is a decimal with the fewest digits that are read as it; these
digits are laid out by the position of their point, behind the sign, and the size tells whether
that position is too far out for them to stand in place. -/
theorem number_layout (x : Float) : number x = bySize x ∧
    (x.isFinite → ¬ x == 0 →
      (∃ d, Fewest (ReadAs x) |toRat x| d) ∧
      ∀ d, Fewest (ReadAs x) |toRat x| d →
        number x = .ofList (minus x ++ layout d.chars d.point) ∧
        (isExtreme x ↔ ¬ (-6 < d.point ∧ d.point ≤ 21))) := by
  refine ⟨number_eq_bySize x, fun hfinite hzero => ?_⟩
  obtain ⟨s, m, q, hp, hx⟩ := exists_parts hfinite hzero
  have hfewest := fewest_shortest hp hx
  refine ⟨⟨_, hfewest⟩, fun d hd => ?_⟩
  obtain rfl := hd.unique hfewest
  exact ⟨number_of_parts hp hx, isExtreme_iff hp hx⟩

/-- The first number that has an exponent for being large, and the last one that is small and has
none. -/
theorem number_layout_edges :
    (Fewest (ReadAs 1e21) |toRat 1e21| ⟨1, 21⟩ ∧ number 1e21 = "1e+21" ∧ isExtreme 1e21) ∧
    (Fewest (ReadAs 1e-6) |toRat 1e-6| ⟨1, -6⟩ ∧ number 1e-6 = "0.000001" ∧ ¬ isExtreme 1e-6) := by
  have hlarge : Fewest (ReadAs 1e21) |toRat 1e21| ⟨1, 21⟩ :=
    shortest_large ▸ fewest_shortest proper_large rfl
  have hsmall : Fewest (ReadAs 1e-6) |toRat 1e-6| ⟨1, -6⟩ :=
    shortest_small ▸ fewest_shortest proper_small rfl
  obtain ⟨htext, hextreme⟩ :=
    ((number_layout 1e21).2 (by decide +kernel) (by decide +kernel)).2 _ hlarge
  obtain ⟨htext', hextreme'⟩ :=
    ((number_layout 1e-6).2 (by decide +kernel) (by decide +kernel)).2 _ hsmall
  exact ⟨⟨hlarge, htext.trans (by decide +kernel), hextreme.mpr (by decide)⟩,
    ⟨hsmall, htext'.trans (by decide +kernel), hextreme'.not.mpr (by decide)⟩⟩

end Display

end DeskCalculator
