import Mathlib.Data.Nat.Log
import Mathlib.Tactic.Ring

/-!
# Floating-point numbers

The nonnegative finite numbers of `binary64`, in units of the least one, 2⁻¹⁰⁷⁴. `round a k` is the
number nearest to `a / 2ᵏ` units, ties to the even one: it is monotone (`round_mono`) and takes
every number to itself, also scaled by a power of two (`round_scale`). A product that is out of
range is infinite, and an integer out of range has no conversion.
-/

set_option autoImplicit false

namespace Binary64

/-! ## The nearest integer -/

/-- The integer nearest to `a / d`, the even one of two. -/
def nearest (a d : Nat) : Nat :=
  if 2 * (a % d) < d then a / d
  else if d < 2 * (a % d) then a / d + 1
  else if a / d % 2 = 0 then a / d
  else a / d + 1

theorem nearest_cases (a d : Nat) :
    (nearest a d = a / d ∧ 2 * (a % d) ≤ d) ∨ (nearest a d = a / d + 1 ∧ d ≤ 2 * (a % d)) := by
  unfold nearest
  split
  · exact .inl ⟨rfl, by omega⟩
  · split
    · exact .inr ⟨rfl, by omega⟩
    · split
      · exact .inl ⟨rfl, by omega⟩
      · exact .inr ⟨rfl, by omega⟩

theorem div_le_nearest (a d : Nat) : a / d ≤ nearest a d := by
  rcases nearest_cases a d with ⟨h, -⟩ | ⟨h, -⟩ <;> omega

theorem nearest_le_div (a d : Nat) : nearest a d ≤ a / d + 1 := by
  rcases nearest_cases a d with ⟨h, -⟩ | ⟨h, -⟩ <;> omega

theorem nearest_mono {a b : Nat} (d : Nat) (h : a ≤ b) : nearest a d ≤ nearest b d := by
  have hdiv : a / d ≤ b / d := Nat.div_le_div_right h
  rcases Nat.lt_or_eq_of_le hdiv with hlt | heq
  · exact (nearest_le_div a d).trans (hlt.trans_le (div_le_nearest b d))
  · -- one quotient: the remainders are in order
    have ha := Nat.div_add_mod a d
    have hb := Nat.div_add_mod b d
    rw [heq] at ha
    have hmod : a % d ≤ b % d := by omega
    unfold nearest
    rw [heq]
    split_ifs <;> omega

theorem nearest_of_dvd {a d : Nat} (h : d ∣ a) : nearest a d = a / d := by
  have hmod := Nat.mod_eq_zero_of_dvd h
  rcases nearest_cases a d with ⟨hn, -⟩ | ⟨hn, hd⟩
  · exact hn
  · rw [hmod] at hd
    have hzero : d = 0 := by omega
    subst hzero
    rw [zero_dvd_iff.1 h]
    rfl

/-! ## Rounding -/

/-- The exponent of the last bit of `a / 2ᵏ`. -/
def exponent (a k : Nat) : Nat := Nat.log 2 a - (52 + k)

/-- `a / 2ᵏ` to the nearest number of 53 bits. -/
def round (a k : Nat) : Nat := nearest a (2 ^ (k + exponent a k)) * 2 ^ exponent a k

theorem lt_two_pow (a k : Nat) : a < 2 ^ 53 * 2 ^ (k + exponent a k) := by
  have hlog := Nat.lt_pow_succ_log_self (by decide : 1 < 2) a
  rw [← pow_add]
  refine hlog.trans_le (Nat.pow_le_pow_right (by decide) ?_)
  unfold exponent
  omega

theorem two_pow_le {a k : Nat} (h : 0 < exponent a k) : 2 ^ 52 * 2 ^ (k + exponent a k) ≤ a := by
  unfold exponent at h ⊢
  have ha : a ≠ 0 := by
    rintro rfl
    simp at h
  rw [← pow_add]
  refine le_trans (Nat.pow_le_pow_right (by decide) ?_) (Nat.pow_log_le_self 2 ha)
  omega

theorem nearest_le_bits (a k : Nat) : nearest a (2 ^ (k + exponent a k)) ≤ 2 ^ 53 := by
  have hdiv : a / 2 ^ (k + exponent a k) < 2 ^ 53 :=
    Nat.div_lt_of_lt_mul ((lt_two_pow a k).trans_eq (Nat.mul_comm _ _))
  exact (nearest_le_div _ _).trans hdiv

theorem le_nearest_bits {a k : Nat} (h : 0 < exponent a k) :
    2 ^ 52 ≤ nearest a (2 ^ (k + exponent a k)) := by
  refine le_trans ?_ (div_le_nearest _ _)
  exact (Nat.le_div_iff_mul_le (Nat.two_pow_pos _)).2 (two_pow_le h)

theorem exponent_mono {a b : Nat} (k : Nat) (h : a ≤ b) : exponent a k ≤ exponent b k :=
  Nat.sub_le_sub_right (Nat.log_mono_right h) _

theorem round_mono {a b : Nat} (k : Nat) (h : a ≤ b) : round a k ≤ round b k := by
  unfold round
  rcases Nat.lt_or_eq_of_le (exponent_mono k h) with hlt | heq
  · -- the last number with one exponent is the first with the next
    calc nearest a (2 ^ (k + exponent a k)) * 2 ^ exponent a k
        ≤ 2 ^ 53 * 2 ^ exponent a k := Nat.mul_le_mul_right _ (nearest_le_bits a k)
      _ = 2 ^ 52 * 2 ^ (exponent a k + 1) := by ring
      _ ≤ 2 ^ 52 * 2 ^ exponent b k :=
          Nat.mul_le_mul_left _ (Nat.pow_le_pow_right (by decide) hlt)
      _ ≤ nearest b (2 ^ (k + exponent b k)) * 2 ^ exponent b k :=
          Nat.mul_le_mul_right _ (le_nearest_bits (Nat.zero_lt_of_lt hlt))
  · rw [← heq]
    exact Nat.mul_le_mul_right _ (nearest_mono _ h)

/-- What has no bit after the last one stays. -/
theorem round_of_dvd {a k : Nat} (h : 2 ^ (k + exponent a k) ∣ a) : round a k = a / 2 ^ k := by
  obtain ⟨m, hm⟩ := h
  have hnearest : nearest a (2 ^ (k + exponent a k)) = m := by
    rw [nearest_of_dvd ⟨m, hm⟩]
    exact Nat.div_eq_of_eq_mul_right (Nat.two_pow_pos _) hm
  rw [round, hnearest]
  refine (Nat.div_eq_of_eq_mul_right (Nat.two_pow_pos k) ?_).symm
  conv_lhs => rw [hm]
  rw [pow_add]
  ring

theorem exponent_mul_pow {a : Nat} (ha : a ≠ 0) (e k : Nat) :
    exponent (a * 2 ^ (e + k)) k = Nat.log 2 a + e - 52 := by
  have hlog : Nat.log 2 (a * 2 ^ (e + k)) = Nat.log 2 a + (e + k) := by
    induction e + k with
    | zero => simp
    | succ j ih =>
      have hpow : a * 2 ^ j ≠ 0 := Nat.mul_ne_zero ha (by simp)
      rw [pow_succ, ← Nat.mul_assoc, Nat.log_mul_base (by decide) hpow, ih]
      omega
  rw [exponent, hlog]
  omega

/-- A number of 53 bits and a power of two. -/
theorem round_of_le {q : Nat} (h : q ≤ 2 ^ 53) (e : Nat) : round (q * 2 ^ e) 0 = q * 2 ^ e := by
  by_cases hq : q = 0
  · subst hq
    simp [round, nearest]
  rw [round_of_dvd, pow_zero, Nat.div_one]
  rw [Nat.zero_add, show e = e + 0 from rfl, exponent_mul_pow hq]
  rcases Nat.lt_or_eq_of_le h with hlt | heq
  · have hlog : Nat.log 2 q < 53 := Nat.log_lt_of_lt_pow hq hlt
    exact Dvd.dvd.mul_left (pow_dvd_pow 2 (by omega)) q
  · rw [heq, Nat.log_pow (by decide), ← pow_add]
    exact pow_dvd_pow 2 (by omega)

/-! ## Numbers -/

/-- 1 is `2 ^ scale` units. -/
@[irreducible] def scale : Nat := 1074

/-- The first power of two that is out of range, 2¹⁰²⁴. -/
def limit : Nat := 2 ^ (1024 + scale)

/-- A finite number that is not negative, in units of 2⁻¹⁰⁷⁴. -/
structure Double where
  units : Nat
  exact : round units 0 = units
  finite : units < limit

theorem round_round (a k : Nat) : round (round a k) 0 = round a k :=
  round_of_le (nearest_le_bits a k) _

/-- `a / 2ᵏ` units: none where it is infinite. -/
def ofRatio (a k : Nat) : Option Double :=
  if h : round a k < limit then some ⟨round a k, round_round a k, h⟩ else none

/-- The conversion of an integer: none where it raises OverflowError. -/
def ofNat (n : Nat) : Option Double := ofRatio (n * 2 ^ scale) 0

/-- `x * y`: none where it is infinite. -/
def mul (x y : Double) : Option Double := ofRatio (x.units * y.units) scale

/-- The integer part, which `int` takes. -/
def trunc (x : Double) : Nat := x.units / 2 ^ scale

theorem ofRatio_eq_some {a k : Nat} {x : Double} :
    ofRatio a k = some x ↔ round a k = x.units := by
  unfold ofRatio
  constructor
  · intro h
    split at h
    · cases h
      rfl
    · cases h
  · intro h
    have hlt : round a k < limit := h ▸ x.finite
    rw [dif_pos hlt]
    cases x
    cases h
    rfl

theorem ofRatio_eq_none {a k : Nat} : ofRatio a k = none ↔ limit ≤ round a k := by
  unfold ofRatio
  split
  · rename_i h
    exact iff_of_false (Option.some_ne_none _) (not_le.2 h)
  · rename_i h
    exact iff_of_true rfl (not_lt.1 h)

theorem Double.eq_of_units {x y : Double} (h : x.units = y.units) : x = y := by
  cases x
  cases y
  cases h
  rfl

theorem mul_mono {x x' y m m' : Double} (h : x.units ≤ x'.units) (hm : mul x y = some m)
    (hm' : mul x' y = some m') : m.units ≤ m'.units := by
  rw [← ofRatio_eq_some.1 hm, ← ofRatio_eq_some.1 hm']
  exact round_mono _ (Nat.mul_le_mul_right _ h)

theorem trunc_mono {x y : Double} (h : x.units ≤ y.units) : trunc x ≤ trunc y :=
  Nat.div_le_div_right h

/-- A number has no bit after its last one. -/
theorem Double.dvd (x : Double) : 2 ^ exponent x.units 0 ∣ x.units := by
  conv_rhs => rw [← x.exact]
  exact Dvd.intro_left _ rfl

/-- Powers of two scale a number without rounding. -/
theorem round_scale (x : Double) (e k : Nat) :
    round (x.units * 2 ^ (e + k)) k = x.units * 2 ^ e := by
  by_cases hx : x.units = 0
  · simp [round, nearest, hx]
  rw [round_of_dvd, pow_add, ← Nat.mul_assoc, Nat.mul_div_cancel _ (Nat.two_pow_pos k)]
  have hdvd : 2 ^ (exponent x.units 0 + (e + k)) ∣ x.units * 2 ^ (e + k) := by
    rw [pow_add]
    exact Nat.mul_dvd_mul_right x.dvd _
  refine (pow_dvd_pow 2 ?_).trans hdvd
  rw [exponent_mul_pow hx]
  unfold exponent
  omega

/-- An integer of 53 bits, as a number. -/
def small (n : Nat) (h : n ≤ 2 ^ 53) : Double where
  units := n * 2 ^ scale
  exact := round_of_le h scale
  finite := by
    refine lt_of_le_of_lt (Nat.mul_le_mul_right _ h) ?_
    rw [limit, ← pow_add, Nat.pow_lt_pow_iff_right (by decide)]
    omega

theorem ofNat_of_le {n : Nat} (h : n ≤ 2 ^ 53) : ofNat n = some (small n h) :=
  ofRatio_eq_some.2 (round_of_le h scale)

theorem round_two_pow (e : Nat) : round (2 ^ e * 2 ^ scale) 0 = 2 ^ (e + scale) := by
  rw [← pow_add, ← Nat.one_mul (2 ^ _)]
  exact round_of_le (by decide) _

theorem two_pow_lt_limit {e : Nat} : 2 ^ (e + scale) < limit ↔ e < 1024 := by
  rw [limit, Nat.pow_lt_pow_iff_right (by decide)]
  omega

/-- The powers of two that are numbers. -/
theorem ofNat_two_pow {e : Nat} (h : e < 1024) :
    ∃ x, ofNat (2 ^ e) = some x ∧ x.units = 2 ^ (e + scale) := by
  refine ⟨⟨2 ^ (e + scale), ?_, two_pow_lt_limit.2 h⟩, ofRatio_eq_some.2 (round_two_pow e), rfl⟩
  rw [← round_two_pow]
  exact round_round _ _

theorem ofNat_two_pow_eq_none {e : Nat} (h : 1024 ≤ e) : ofNat (2 ^ e) = none := by
  cases hof : ofNat (2 ^ e) with
  | none => rfl
  | some x =>
    have hunits := ofRatio_eq_some.1 hof
    rw [round_two_pow] at hunits
    have hlt := two_pow_lt_limit.1 (hunits ▸ x.finite)
    omega

end Binary64
