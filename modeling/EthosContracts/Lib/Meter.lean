/-
**Metered entitlements: units that are released over time and drawn at most once.**

A number of units is available at every moment, and never decreases. Units are drawn and paid at
once, or reserved first and paid or given back later; at most one reservation is open.

* `Meter.Step available` — what may happen while so many units are available. A reservation is given
  back only as long as nothing has been drawn after it.
-/

import Mathlib.Order.Nat

namespace EthosContracts.Lib

/-- Units drawn, units paid, and the open reservation. -/
structure Meter where
  drawn : Nat
  paid : Nat
  /-- The counts before and after an open reservation. -/
  reserved : Option (Nat × Nat)

namespace Meter

def empty : Meter := ⟨0, 0, none⟩

def pending (m : Meter) : Nat :=
  match m.reserved with
  | some (before, after) => after - before
  | none => 0

/-- What may happen while `available` units are. -/
inductive Step (available : Nat) : Meter → Meter → Prop
  | draw {m count} (more : m.drawn ≤ count) (within : count ≤ available) :
      Step available m { m with drawn := count, paid := m.paid + (count - m.drawn) }
  | reserve {m count} (free : m.reserved = none) (more : m.drawn ≤ count)
      (within : count ≤ available) :
      Step available m { m with drawn := count, reserved := some (m.drawn, count) }
  | giveBack {m before after} (opened : m.reserved = some (before, after))
      (last : m.drawn = after) :
      Step available m { m with drawn := before, reserved := none }
  | settle {m before after} (opened : m.reserved = some (before, after)) :
      Step available m { m with paid := m.paid + (after - before), reserved := none }

/-- The units drawn are those paid and those reserved, and they were available. -/
structure Exact (available : Nat) (m : Meter) : Prop where
  drawn : m.paid + m.pending = m.drawn
  within : m.drawn ≤ available
  ordered : ∀ before after, m.reserved = some (before, after) → before ≤ after

theorem exact_empty (available : Nat) : Exact available empty :=
  ⟨rfl, Nat.zero_le _, by simp [empty]⟩

namespace Exact

variable {available later : Nat} {m n : Meter}

theorem mono (exactly : Exact available m) (le : available ≤ later) : Exact later m :=
  ⟨exactly.drawn, exactly.within.trans le, exactly.ordered⟩

theorem step (exactly : Exact available m) (stepped : Step available m n) : Exact available n := by
  have balanced := exactly.drawn
  have bounded := exactly.within
  cases stepped with
  | @draw count more within =>
    refine ⟨?_, within, exactly.ordered⟩
    show m.paid + (count - m.drawn) + m.pending = count
    omega
  | @reserve count free more within =>
    have nothing : m.pending = 0 := by
      unfold pending
      rw [free]
    refine ⟨?_, within, ?_⟩
    · show m.paid + (count - m.drawn) = count
      omega
    · intro before after same
      obtain ⟨rfl, rfl⟩ := Prod.mk.inj (Option.some.inj same)
      exact more
  | @giveBack before after reserved last =>
    have ordered := exactly.ordered before after reserved
    have units : m.pending = after - before := by
      unfold pending
      rw [reserved]
    refine ⟨?_, ?_, by simp⟩
    · show m.paid + 0 = before
      omega
    · show before ≤ available
      omega
  | @settle before after reserved =>
    have units : m.pending = after - before := by
      unfold pending
      rw [reserved]
    refine ⟨?_, bounded, by simp⟩
    show m.paid + (after - before) + 0 = m.drawn
    omega

end Exact

end Meter

end EthosContracts.Lib
