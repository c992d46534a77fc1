import DeskCalculator.Proofs.SignedSizes

/-!
# DeskCalculator.Proofs.WholeRounding — whole numbers that are rounded to decimal places

A whole number has no decimal places, but it is scaled up and down like any other number, and the
product and the quotient are rounded.  The rounding between them does nothing.  The two errors do
not always cancel: a product with one binary digit more than the number and the scale have together
is rounded to even units, and the quotient may come out next to the number.

* `Rescaled`: what becomes of the size of a whole number.
* `Rescaled.near`, `Rescaled.eq_of_exact`, `Rescaled.eq_of_lt`: how near it comes, and when it comes
  back.
* `roundTo_whole`: the number that whole numbers are rounded to.
-/

namespace DeskCalculator.Binary64

/-! ## Exact numbers -/

section

variable {n : Nat} {e : Int} {r v : ℚ}

/-- A significand of at most 53 bits is not rounded, and neither is the next one. -/
theorem roundedTo_short (hn : 0 < n) (hle : n ≤ 2 ^ 53) (he : -1022 ≤ e)
    (hsmall : (n : ℚ) * 2 ^ e < 2 ^ (1024 : Int)) : RoundedTo (n * 2 ^ e) (n * 2 ^ e) := by
  obtain ⟨k, d, hk, hshort, hd, hvalue⟩ : ∃ (k : Nat) (d : Int), 0 < k ∧ k < 2 ^ 53 ∧ -1022 ≤ d ∧
      (k : ℚ) * 2 ^ d = n * 2 ^ e := by
    rcases hle.lt_or_eq with hlt | rfl
    · exact ⟨n, e, hn, hlt, he, rfl⟩
    · refine ⟨1, 53 + e, one_pos, by norm_num, by omega, ?_⟩
      rw [zpow_add₀ (by norm_num), Nat.cast_one, one_mul]
      norm_num
  obtain ⟨m, q, hp, -, hproper⟩ := exists_proper hk hshort hd (hvalue ▸ hsmall)
  have hself := hproper.trans hvalue
  exact ⟨m, q, hp, hself ▸ .self m q, hself.symm⟩

theorem tooLarge_lt_two_zpow : tooLarge < 2 ^ (1024 : Int) :=
  calc tooLarge = ((2 : ℚ) ^ 54 - 1) * 2 ^ 970 := rfl
    _ < 2 ^ 54 * 2 ^ 970 := mul_lt_mul_of_pos_right (by norm_num) (by positivity)
    _ = 2 ^ (1024 : Int) := (pow_add (2 : ℚ) 54 970).symm

theorem RoundedTo.lt_two_zpow (h : RoundedTo r v) : v < 2 ^ (1024 : Int) := by
  obtain ⟨m, q, hp, -, rfl⟩ := h
  have hbelow : (m : ℚ) < 2 ^ (53 : Int) := by exact_mod_cast hp.below
  calc (m : ℚ) * 2 ^ q < 2 ^ (53 : Int) * 2 ^ q := mul_lt_mul_of_pos_right hbelow (two_zpow_pos q)
    _ = 2 ^ (53 + q) := (zpow_add₀ (by norm_num) _ _).symm
    _ ≤ 2 ^ (1024 : Int) := zpow_le_zpow_right₀ (by norm_num) (by have := hp.greatest; omega)

theorem roundedTo_natural (hn : 0 < n) (hle : n ≤ 2 ^ 53) : RoundedTo n n := by
  have hvalue : (n : ℚ) * 2 ^ (0 : Int) = n := by rw [zpow_zero, mul_one]
  have hsmall : (n : ℚ) < 2 ^ (1024 : Int) := by
    have hle : (n : ℚ) ≤ 2 ^ (53 : Int) := by exact_mod_cast hle
    exact hle.trans_lt (zpow_lt_zpow_right₀ (by norm_num) (by norm_num))
  have hshort := roundedTo_short (e := 0) hn hle (by norm_num) (by rwa [hvalue])
  rwa [hvalue] at hshort

/-- What is not above a short number is not rounded to one above it. -/
theorem RoundedTo.le_short (h : RoundedTo r v) (hn : 0 < n) (hle : n ≤ 2 ^ 53) (he : -1022 ≤ e)
    (hr : r ≤ n * 2 ^ e) : v ≤ n * 2 ^ e := by
  rcases lt_or_ge ((n : ℚ) * 2 ^ e) (2 ^ (1024 : Int)) with hsmall | hlarge
  · exact h.mono (roundedTo_short hn hle he hsmall) hr
  · exact h.lt_two_zpow.le.trans hlarge

/-- What lies within a unit of a number is rounded to what lies within a unit of it. -/
theorem RoundedTo.within_unit {m : Nat} {q : Int} (h : RoundedTo r v) (hp : Proper m q)
    (hlong : 2 ^ 52 ≤ m) (hq : -1022 ≤ q) (hr : |r - m * 2 ^ q| ≤ 2 ^ q) :
    |v - m * 2 ^ q| ≤ 2 ^ q := by
  obtain ⟨n, rfl⟩ : ∃ n, m = n + 1 := ⟨m - 1, by omega⟩
  have hbelow := hp.below
  have hsmall := hp.roundedTo.lt_two_zpow
  have hunit := two_zpow_pos q
  rw [Nat.cast_succ] at hr hsmall ⊢
  obtain ⟨hlow, hhigh⟩ := abs_le.mp hr
  have hpred : (n : ℚ) * 2 ^ q ≤ v :=
    (roundedTo_short (by omega) (by omega) hq (by linarith)).mono h (by linarith)
  have hsucc : v ≤ (n + 2 : Nat) * 2 ^ q :=
    h.le_short (by omega) hbelow hq (by push_cast; linarith)
  push_cast at hsucc
  rw [abs_le]
  constructor <;> linarith

/-- What a natural number is rounded to is one. -/
theorem RoundedTo.exists_nat (h : RoundedTo n v) : ∃ k : Nat, v = k := by
  have hn : 0 < n := by exact_mod_cast h.pos
  rcases le_or_gt n (2 ^ 53) with hle | hgt
  · exact ⟨n, h.unique (roundedTo_natural hn hle)⟩
  · have hlarge : ((2 ^ 53 : Nat) : ℚ) ≤ v :=
      (roundedTo_natural (by norm_num) le_rfl).mono h (by exact_mod_cast hgt.le)
    obtain ⟨m, q, hp, -, rfl⟩ := h
    have hq : 0 ≤ q := by
      by_contra hneg
      have hone : (2 : ℚ) ^ q ≤ 1 := zpow_le_one_of_nonpos₀ (by norm_num) (by omega)
      have hbelow : (m : ℚ) < (2 ^ 53 : Nat) := by exact_mod_cast hp.below
      have hprod : (m : ℚ) * 2 ^ q ≤ m := mul_le_of_le_one_right (by positivity) hone
      linarith
    obtain ⟨k, rfl⟩ := Int.eq_ofNat_of_zero_le hq
    exact ⟨m * 2 ^ k, by push_cast; rw [zpow_natCast]⟩

end

/-- What lies within half a unit of a number is rounded to it. -/
theorem Rounds.of_abs_lt {m : Nat} {q : Int} {r : ℚ} (hm : m ≠ 2 ^ 52)
    (h : |r - m * 2 ^ q| < 1 / 2 * 2 ^ q) : Rounds m q r := by
  have hpos := two_zpow_pos q
  obtain ⟨hlow, hhigh⟩ := abs_lt.mp h
  refine ⟨.inl ?_, .inl ?_⟩
  · rw [if_neg fun hfirst => hm hfirst.1, lt_div_iff₀ hpos]
    linarith
  · rw [div_lt_iff₀ hpos]
    linarith

/-- The error of a rounding, told from the size of what is rounded. -/
theorem Rounds.half_of_lt {m : Nat} {q k : Int} {r : ℚ} (h : Rounds m q r) (hp : Proper m q)
    (hk : -1074 ≤ k) (hr : r < 2 ^ (53 + k)) : |m * 2 ^ q - r| ≤ 2 ^ k / 2 := by
  rcases le_or_gt q k with hqk | hqk
  · have hle : (2 : ℚ) ^ q ≤ 2 ^ k := zpow_le_zpow_right₀ (by norm_num) hqk
    linarith [h.half]
  -- the number is the first one of the next binade, below which the others are nearer together
  have hbelow : r < 2 ^ (52 + q) :=
    hr.trans_le (zpow_le_zpow_right₀ (by norm_num) (by omega))
  obtain rfl := h.eq_first_of_below (hp.normal (by omega)) (not_le.mpr hbelow)
  have hpos := two_zpow_pos q
  have hlow : ((2 : ℚ) ^ 52 - 1 / 4) * 2 ^ q ≤ r := by
    have hlow := h.low
    rw [if_pos ⟨rfl, by omega⟩] at hlow
    push_cast at hlow
    rw [← le_div_iff₀ hpos]
    exact hlow.elim le_of_lt fun hlow => hlow.1.le
  have hbelow : r < 2 ^ 52 * 2 ^ q := by
    rw [zpow_add₀ (by norm_num)] at hbelow
    exact hbelow
  have hnext : q = k + 1 := by
    by_contra hne
    have hfar : (2 : ℚ) ^ (53 + k) ≤ 2 ^ (51 + q) := zpow_le_zpow_right₀ (by norm_num) (by omega)
    have hsplit : (2 : ℚ) ^ (51 + q) = 2 ^ 51 * 2 ^ q := zpow_add₀ (by norm_num) 51 q
    linarith
  have hdouble : (2 : ℚ) ^ q = 2 * 2 ^ k := by
    rw [hnext, zpow_add₀ (by norm_num), zpow_one, mul_comm]
  have hhalf := two_zpow_pos k
  push_cast
  rw [abs_le]
  constructor <;> linarith

/-! ## Scaling up and down -/

/-- What becomes of a size `v` that is scaled by `10 ^ k` and back, if the number between is whole. -/
inductive Rescaled (k : Nat) (v : ℚ) : ℚ → Prop
  | zero (h : v = 0) : Rescaled k v v
  | overflow (large : tooLarge ≤ v * 10 ^ k) : Rescaled k v v
  | scaled {w u : ℚ} (up : RoundedTo (v * 10 ^ k) w) (down : RoundedTo (w / 10 ^ k) u) :
    Rescaled k v u

namespace Rescaled

variable {k m b : Nat} {q a : Int} {u v : ℚ}

/-- A size comes back if its product is not rounded. -/
theorem eq_of_exact (h : Rescaled k v u) (hv : v = 0 ∨ RoundedTo v v)
    (hexact : RoundedTo (v * 10 ^ k) (v * 10 ^ k)) : u = v := by
  cases h with
  | zero h => rfl
  | overflow large => rfl
  | scaled up down =>
    rw [up.unique hexact, mul_div_cancel_right₀ _ (by positivity)] at down
    rcases hv with rfl | hv
    · exact absurd down.pos (lt_irrefl 0)
    · exact down.unique hv

/-- A bound for the error of the product becomes one for what is divided. -/
theorem quotient_error {c w : ℚ} (herror : |w - m * 2 ^ q * 10 ^ k| ≤ c * 2 ^ (q + b)) :
    |w / 10 ^ k - m * 2 ^ q| * 10 ^ k ≤ c * 2 ^ q * 2 ^ b := by
  have hpos : (0 : ℚ) < 10 ^ k := by positivity
  calc |w / 10 ^ k - m * 2 ^ q| * 10 ^ k = |(w / 10 ^ k - m * 2 ^ q) * 10 ^ k| := by
        rw [abs_mul, abs_of_pos hpos]
    _ = |w - m * 2 ^ q * 10 ^ k| := by rw [sub_mul, div_mul_cancel₀ _ hpos.ne']
    _ ≤ c * 2 ^ (q + b) := herror
    _ = c * 2 ^ q * 2 ^ b := by rw [zpow_add₀ (by norm_num), zpow_natCast, mul_assoc]

/-- The quotient of a rounded product lies within a unit of the size. -/
theorem quotient_near {w : ℚ} (hp : Proper m q) (hq : -52 ≤ q)
    (up : RoundedTo (m * 2 ^ q * 10 ^ k) w) : |w / 10 ^ k - m * 2 ^ q| ≤ 2 ^ q := by
  have hten : (2 : ℚ) ^ (10 ^ k).log2 ≤ 10 ^ k := by
    exact_mod_cast Nat.log2_self_le (by positivity)
  have hten' : (10 : ℚ) ^ k < 2 ^ ((10 ^ k).log2 + 1) := by exact_mod_cast Nat.lt_log2_self
  generalize (10 ^ k).log2 = b at hten hten'
  have hbelow : (m : ℚ) < 2 ^ (53 : Int) := by exact_mod_cast hp.below
  have hproduct : (m : ℚ) * 2 ^ q * 10 ^ k < 2 ^ (53 + (q + (b + 1 : Nat))) := by
    rw [zpow_add₀ (by norm_num), zpow_add₀ (by norm_num), zpow_natCast, ← mul_assoc]
    gcongr
  obtain ⟨M, Q, hP, hrounds, rfl⟩ := up
  have herror : |(M : ℚ) * 2 ^ Q - m * 2 ^ q * 10 ^ k| ≤ 1 * 2 ^ (q + b) := by
    refine (hrounds.half_of_lt hP (by omega) hproduct).trans_eq ?_
    rw [Nat.cast_succ, ← add_assoc, zpow_add₀ (by norm_num), zpow_one]
    ring
  refine le_of_mul_le_mul_right ?_ (show (0 : ℚ) < 10 ^ k by positivity)
  refine (quotient_error herror).trans ?_
  rw [one_mul]
  exact mul_le_mul_of_nonneg_left hten (two_zpow_pos q).le

/-- A size comes back, or next to itself. -/
theorem near (h : Rescaled k (m * 2 ^ q) u) (hp : Proper m q) (hlong : 2 ^ 52 ≤ m) (hq : -52 ≤ q) :
    |u - m * 2 ^ q| ≤ 2 ^ q := by
  cases h with
  | zero h => simpa using (two_zpow_pos q).le
  | overflow large => simpa using (two_zpow_pos q).le
  | scaled up down => exact down.within_unit hp hlong (by omega) (quotient_near hp hq up)

/-- A power of ten is no power of two. -/
theorem two_pow_lt_ten_pow (hk : k ≠ 0) (h : (2 : ℚ) ^ b ≤ 10 ^ k) : (2 : ℚ) ^ b < 10 ^ k := by
  refine h.lt_of_ne fun heq => ?_
  have hnat : 2 ^ b = 10 ^ k := by exact_mod_cast heq
  have hfive : 5 ∣ 2 ^ b := hnat ▸ dvd_pow (by norm_num) hk
  exact absurd (Nat.prime_five.dvd_of_dvd_pow hfive) (by norm_num)

/-- The product with a power of two is short. -/
theorem product_exact {w : ℚ} (hk : k ≤ 15) (hq : -52 ≤ q)
    (up : RoundedTo ((2 ^ 52 : Nat) * 2 ^ q * 10 ^ k) w) :
    RoundedTo ((2 ^ 52 : Nat) * 2 ^ q * 10 ^ k) ((2 ^ 52 : Nat) * 2 ^ q * 10 ^ k) := by
  have hvalue : ((2 ^ 52 : Nat) : ℚ) * 2 ^ q * 10 ^ k = (10 ^ k : Nat) * 2 ^ (52 + q) := by
    rw [zpow_add₀ (by norm_num)]
    push_cast
    ring
  have hshort : 10 ^ k ≤ 2 ^ 53 :=
    (Nat.pow_le_pow_right (by norm_num) hk).trans (by norm_num)
  have hsmall : ((10 ^ k : Nat) : ℚ) * 2 ^ (52 + q) < 2 ^ (1024 : Int) := by
    obtain ⟨M, Q, hP, hrounds, -⟩ := up
    rw [← hvalue]
    exact (hrounds.lt_tooLarge hP).trans tooLarge_lt_two_zpow
  rw [hvalue]
  exact roundedTo_short (by positivity) hshort (by omega) hsmall

/-- **A size comes back** if its product has no binary digit more than the size and the scale have
together. -/
theorem eq_of_lt (h : Rescaled k (m * 2 ^ q) u) (hp : Proper m q) (hq : -52 ≤ q) (hk : k ≤ 15)
    (hten : (2 : ℚ) ^ b ≤ 10 ^ k) (hlt : (m : ℚ) * 2 ^ q * 10 ^ k < 2 ^ (53 + (q + b))) :
    u = m * 2 ^ q := by
  have hself := hp.roundedTo
  cases h with
  | zero h => rfl
  | overflow large => rfl
  | scaled up down =>
    by_cases hzero : k = 0
    · subst hzero
      exact eq_of_exact (.scaled up down) (.inr hself) (by simpa using hself)
    by_cases hfirst : m = 2 ^ 52
    · subst hfirst
      exact eq_of_exact (.scaled up down) (.inr hself) (product_exact hk hq up)
    obtain ⟨M, Q, hP, hrounds, rfl⟩ := up
    have herror : |(M : ℚ) * 2 ^ Q - m * 2 ^ q * 10 ^ k| ≤ 1 / 2 * 2 ^ (q + b) := by
      linarith [hrounds.half_of_lt hP (by omega) hlt]
    have hquotient : |(M : ℚ) * 2 ^ Q / 10 ^ k - m * 2 ^ q| < 1 / 2 * 2 ^ q := by
      refine lt_of_mul_lt_mul_right ?_ (show (0 : ℚ) ≤ 10 ^ k by positivity)
      refine (quotient_error herror).trans_lt ?_
      exact mul_lt_mul_of_pos_left (two_pow_lt_ten_pow hzero hten) (by positivity)
    exact down.unique ⟨m, q, hp, .of_abs_lt hfirst hquotient, rfl⟩

end Rescaled

/-! ## The computation -/

theorem tenPower_eq : ∀ k : Fin 16,
    tenPower (UInt32.ofNat k).toInt32.toInt = nearest .positive (10 ^ k.val) 0 := by
  decide +kernel

/-- The powers of ten up to the fifteenth are exact. -/
theorem denotes_tenPower {p : UInt32} (hp : p.toNat ≤ 15) :
    Denotes (tenPower p.toInt32.toInt) (10 ^ p.toNat) := by
  have heq := tenPower_eq ⟨p.toNat, by omega⟩
  rw [UInt32.ofNat_toNat] at heq
  have hshort : 10 ^ p.toNat < 2 ^ 53 :=
    (Nat.pow_le_pow_right (by norm_num) hp).trans_lt (by norm_num)
  rw [heq]
  exact_mod_cast denotes_natural (by positivity) hshort

section

variable {x : Float} {s : Sign} {m n : Nat} {q : Int} {p : UInt32}

theorem roundTo_zero (s : Sign) (hprec : p.toNat ≤ 15) : roundTo (zero s) p = zero s := by
  obtain ⟨m, q, hp, hscale, -⟩ := denotes_tenPower hprec
  have hscaled := mul_of_zero (parts_zero s) hscale
  have hround : roundHalfAway (zero s) = zero s := by
    unfold roundHalfAway
    rw [parts_zero]
  simp only [roundTo, hscaled, hround, div_of_zero (parts_zero s) hscale, ite_self]

/-- The rounded product is not below the scale, which is a number itself. -/
theorem one_le_quotient {k : Nat} {v w : ℚ} (hone : 1 ≤ v) (hup : RoundedTo (v * 10 ^ k) w)
    (hk : k ≤ 15) : 1 ≤ w / 10 ^ k := by
  have hself : RoundedTo ((10 ^ k : Nat) : ℚ) ((10 ^ k : Nat) : ℚ) :=
    roundedTo_natural (by positivity)
      ((Nat.pow_le_pow_right (by norm_num) hk).trans (by norm_num))
  push_cast at hself
  exact (one_le_div (by positivity)).mpr
    (hself.mono hup (le_mul_of_one_le_left (by positivity) hone))

/-- A whole number is the nearest one to itself. -/
theorem eq_of_within_half {k N : Nat} (low : (k : ℚ) - 1 / 2 ≤ N) (high : (N : ℚ) < k + 1 / 2) :
    k = N := by
  have hle : (k : ℚ) < (N + 1 : Nat) := by
    push_cast
    linarith
  have hge : (N : ℚ) < (k + 1 : Nat) := by
    push_cast
    linarith
  rw [Nat.cast_lt] at hle hge
  omega

/-- A whole number is rounded to the one that its size is rescaled to, with the same sign. -/
theorem roundTo_of_parts (hp : Proper m q) (hx : parts x = .finite s m q hp.pos)
    (hn : (m : ℚ) * 2 ^ q = n) (hone : (1 : ℚ) ≤ m * 2 ^ q) (hprec : p.toNat ≤ 15) :
    ∃ M Q, ∃ hP : Proper M Q, parts (roundTo x p) = .finite s M Q hP.pos ∧
      Rescaled p.toNat (m * 2 ^ q) (M * 2 ^ Q) := by
  have hten : (1 : ℚ) ≤ 10 ^ p.toNat := one_le_pow₀ (by norm_num)
  have hscaled := roundTo_of_scale (.finite hp hx) (denotes_tenPower hprec)
  generalize roundTo x p = y at hscaled ⊢
  cases hscaled with
  | unchanged same large => exact ⟨m, q, hp, same ▸ hx, .overflow large⟩
  | @rounded u k up hu low high hk down =>
    have hup := up.roundedTo (one_le_mul_of_one_le_of_one_le hone hten)
    -- the product is whole again, so that the rounding in the middle does nothing
    obtain ⟨N, rfl⟩ : ∃ N : Nat, u = N := by
      have hnat : RoundedTo ((n * 10 ^ p.toNat : Nat) : ℚ) u := by
        push_cast
        rwa [← hn]
      exact hnat.exists_nat
    obtain rfl := eq_of_within_half low high
    cases down with
    | overflow large =>
      exact absurd (large.trans (div_le_self k.cast_nonneg hten)) (not_le.mpr hk)
    | finite hv round =>
      have hdown := round.roundedTo (one_le_quotient hone hup hprec)
      cases hv with
      | zero => exact absurd hdown.self.pos (lt_irrefl 0)
      | finite hP hparts => exact ⟨_, _, hP, hparts, .scaled hup hdown⟩

end

/-- Two numbers of one sign are the same just if their sizes are. -/
theorem eq_iff_of_parts {x y : Float} {s : Sign} {m M : Nat} {q Q : Int} (hp : Proper m q)
    (hP : Proper M Q) (hx : parts x = .finite s m q hp.pos) (hy : parts y = .finite s M Q hP.pos) :
    y = x ↔ (M : ℚ) * 2 ^ Q = m * 2 ^ q := by
  constructor
  · rintro rfl
    rw [← abs_toRat hy, abs_toRat hx]
  · intro h
    obtain ⟨rfl, rfl⟩ := hP.unique hp h
    exact eq_of_parts_eq (hy.trans hx.symm)

/-- A short whole number of the scale is not rounded. -/
theorem roundedTo_scaled {size : ℚ} {n k : Nat} (hn : size = n) (hone : 1 ≤ size)
    (hle : size * 10 ^ k ≤ 2 ^ 53) : RoundedTo (size * 10 ^ k) (size * 10 ^ k) := by
  have hnat : size * 10 ^ k = (n * 10 ^ k : Nat) := by
    push_cast
    rw [hn]
  have hpos : 0 < n := by
    rw [hn] at hone
    exact_mod_cast hone
  rw [hnat] at hle ⊢
  exact roundedTo_natural (by positivity) (by exact_mod_cast hle)

/-- One unit in the last place of a number, 0 for a zero. -/
def lastPlace (x : Float) : ℚ :=
  match parts x with
  | .finite _ _ q _ => 2 ^ q
  | .zero _ | .infinity _ | .notANumber => 0

/-- The size of a whole number that is not zero. -/
theorem Whole.exists_parts {x : Float} (hx : Whole x) : (∃ s, x = Binary64.zero s) ∨
    ∃ s m q, ∃ hp : Proper m q, parts x = .finite s m q hp.pos ∧ 2 ^ 52 ≤ m ∧ -52 ≤ q ∧
      (1 : ℚ) ≤ m * 2 ^ q ∧ ∃ n : Nat, (m : ℚ) * 2 ^ q = n := by
  cases hx with
  | zero h => exact .inl ⟨_, eq_of_parts_eq (h.trans (parts_zero _).symm)⟩
  | @finite s m q hm h n value =>
    have hcanonical := canonical_parts x
    rw [h] at hcanonical
    cases hcanonical with
    | finite _ hp =>
      have hone : (1 : ℚ) ≤ m * 2 ^ q := by
        have hpos := hp.roundedTo.pos
        rw [value] at hpos ⊢
        exact_mod_cast hpos
      have hq : -52 ≤ q := by
        have hsize := (Rounds.self m q).lt_two_zpow hp.below
        have hexponent := lt_of_two_zpow_lt ((zpow_zero (2 : ℚ)).trans_le hone |>.trans_lt hsize)
        omega
      exact .inr ⟨s, m, q, hp, h, hp.normal (by omega), hq, hone, n, value⟩

/-- **Whole numbers under decimal rounding.**  The size of the number is scaled up and down, with two
roundings to binary64, and the sign is kept; so the number comes back just if its size does.  It
comes back whenever its product is not rounded, as below `2 ^ 53`, and whenever its product has no
more binary digits than the number and the scale have together.  Otherwise the result is finite, and
at most one unit in the last place away. -/
theorem roundTo_whole {x : Float} {p : UInt32} (hx : Whole x) (hp : p.toNat ≤ 15) :
    let size := |toRat x|
    let scaled := size * 10 ^ p.toNat
    ∃ v, Rescaled p.toNat size v ∧
      |toRat (roundTo x p)| = v ∧ isNegative (roundTo x p) = isNegative x ∧
      (roundTo x p).isFinite = true ∧ |v - size| ≤ lastPlace x ∧
      (roundTo x p = x ↔ v = size) ∧
      (scaled ≤ 2 ^ 53 → roundTo x p = x) ∧
      (RoundedTo scaled scaled → roundTo x p = x) ∧
      ∀ (a : Int) (b : Nat), 2 ^ a ≤ size → 2 ^ b ≤ (10 : ℚ) ^ p.toNat →
        scaled < 2 ^ (a + b + 1) → roundTo x p = x := by
  intro size scaled
  have hscaled : scaled = size * 10 ^ p.toNat := rfl
  have hsize : size = |toRat x| := rfl
  clear_value scaled size
  rcases hx.exists_parts with ⟨s, rfl⟩ | ⟨s, m, q, hq, hparts, hlong, hleast, hone, n, hn⟩
  · have hround := roundTo_zero s hp
    have hzero : size = 0 := by rw [hsize, toRat_zero, abs_zero]
    refine ⟨size, .zero hzero, by rw [hround, hsize], by rw [hround], ?_, ?_, ?_, ?_, ?_, ?_⟩
    · rw [hround, isFinite_eq, parts_zero]
      rfl
    · rw [sub_self, abs_zero, lastPlace, parts_zero]
    · exact iff_of_true hround rfl
    · exact fun _ => hround
    · exact fun _ => hround
    · exact fun _ _ _ _ _ => hround
  · obtain ⟨M, Q, hP, hresult, hrescaled⟩ := roundTo_of_parts hq hparts hn hone hp
    rw [abs_toRat hparts] at hsize
    subst hsize
    have hback : roundTo x p = x ↔ (M : ℚ) * 2 ^ Q = m * 2 ^ q :=
      eq_iff_of_parts hq hP hparts hresult
    have hexact (h : RoundedTo scaled scaled) : roundTo x p = x :=
      hback.mpr (hrescaled.eq_of_exact (.inr hq.roundedTo) (hscaled ▸ h))
    refine ⟨M * 2 ^ Q, hrescaled, abs_toRat hresult, ?_, ?_, ?_, hback, ?_, hexact, ?_⟩
    · rw [isNegative, isNegative, hresult, hparts]
    · rw [isFinite_eq, hresult]
      rfl
    · rw [lastPlace, hparts]
      exact hrescaled.near hq hlong hleast
    · intro hle
      rw [hscaled] at hexact hle
      exact hexact (roundedTo_scaled hn hone hle)
    · intro a b ha hb hlt
      have hexponent := lt_of_two_zpow_lt (ha.trans_lt ((Rounds.self m q).lt_two_zpow hq.below))
      refine hback.mpr (hrescaled.eq_of_lt hq hleast hp hb ?_)
      rw [← hscaled]
      exact hlt.trans_le (zpow_le_zpow_right₀ (by norm_num) (by omega))

theorem roundTo_whole_three :
    Whole 3 ∧ (15 : UInt32).toNat ≤ 15 ∧ |toRat 3| * 10 ^ (15 : UInt32).toNat ≤ 2 ^ 53 ∧
      roundTo 3 15 = 3 := by
  have hwhole : Whole 3 := isWhole_iff.mp (by decide +kernel)
  have hthree : (3 : Float) = nearest .positive 3 0 := by decide +kernel
  obtain ⟨m, q, hp, hparts, hvalue⟩ := denotes_natural (n := 3) (by norm_num) (by norm_num)
  have hsize : |toRat 3| * 10 ^ (15 : UInt32).toNat ≤ 2 ^ 53 := by
    rw [hthree, abs_toRat hparts, ← hvalue, show (15 : UInt32).toNat = 15 from rfl]
    norm_num
  obtain ⟨v, -, -, -, -, -, -, hshort, -⟩ := roundTo_whole (p := 15) hwhole (by decide)
  exact ⟨hwhole, by decide, hsize, hshort hsize⟩

/-- The largest number of 53 bits does not come back from one decimal place. -/
theorem roundTo_moves_whole :
    Whole 9007199254740991 ∧ (1 : UInt32).toNat ≤ 15 ∧
      roundTo 9007199254740991 1 = 9007199254740990 ∧
      (9007199254740990 : Float) ≠ 9007199254740991 :=
  ⟨isWhole_iff.mp (by decide +kernel), by decide, by decide +kernel, by decide +kernel⟩

end DeskCalculator.Binary64
