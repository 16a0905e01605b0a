/-
**Pro-rata shares: what rounding does to the price of a share.**

A pool owns `assets` and has issued `shares`; a share is worth `assets / shares`, an exact fraction.
-/

import Mathlib.Algebra.Order.Field.Basic
import Mathlib.Algebra.Order.Field.Rat
import Mathlib.Data.Rat.Cast.Order
import Mathlib.Tactic.Linarith
import Mathlib.Tactic.Ring

namespace EthosContracts.Lib

/-- An exchange of assets for shares in which the pool is not the loser. A redemption has both
negative. -/
def Fair (assets shares paid minted : Int) : Prop := minted * assets ≤ paid * shares

variable {assets shares paid minted : Int}

theorem Fair.price_le (fair : Fair assets shares paid minted) (before : 0 < shares)
    (after : 0 < shares + minted) :
    (assets : ℚ) / shares ≤ ((assets + paid : Int) : ℚ) / ((shares + minted : Int) : ℚ) := by
  rw [div_le_div_iff₀ (by exact_mod_cast before) (by exact_mod_cast after)]
  have cross : assets * (shares + minted) ≤ (assets + paid) * shares := by
    unfold Fair at fair
    calc assets * (shares + minted) = assets * shares + minted * assets := by ring
      _ ≤ assets * shares + paid * shares := by gcongr
      _ = (assets + paid) * shares := by ring
  exact_mod_cast cross

theorem fair_of_floor_shares (pos : 0 < assets) (paying : 0 ≤ paid) (issued : 0 ≤ shares) :
    Fair assets shares paid ((paid * shares).tdiv assets) := by
  unfold Fair
  rw [Int.tdiv_eq_ediv_of_nonneg (mul_nonneg paying issued)]
  exact Int.ediv_mul_le _ pos.ne'

theorem fair_of_floor_assets {redeemed : Int} (owned : 0 ≤ assets) (redeeming : 0 ≤ redeemed)
    (issued : 0 < shares) :
    Fair assets shares (-(redeemed * assets).tdiv shares) (-redeemed) := by
  unfold Fair
  rw [Int.tdiv_eq_ediv_of_nonneg (mul_nonneg redeeming owned)]
  have floor := Int.ediv_mul_le (redeemed * assets) issued.ne'
  linarith

theorem redeem_le (fair : Fair assets shares paid minted) (owned : 0 ≤ assets + paid)
    (holding : 0 ≤ minted) (issued : 0 < shares + minted) :
    (minted * (assets + paid)).tdiv (shares + minted) ≤ paid := by
  rw [Int.tdiv_eq_ediv_of_nonneg (mul_nonneg holding owned)]
  refine Int.ediv_le_of_le_mul issued ?_
  unfold Fair at fair
  linarith

end EthosContracts.Lib
