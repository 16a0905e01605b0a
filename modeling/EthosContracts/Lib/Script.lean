/-
**Scripts: programs that act on a shared state one atomic action at a time.**
-/

import Mathlib.Data.List.Induction
import EthosContracts.Lib.Run

namespace EthosContracts.Lib

/-- A program that performs actions and goes on with their answers. It ends with a value or a
failure. -/
inductive Script (Act : Type) (Res : Act → Type) (ε α : Type) : Type
  | done (value : α)
  | fail (failure : ε)
  | act (action : Act) (next : Res action → Script Act Res ε α)

namespace Script

variable {Act : Type} {Res : Act → Type} {ε α β : Type}

protected def bind : Script Act Res ε α → (α → Script Act Res ε β) → Script Act Res ε β
  | .done value, rest => rest value
  | .fail failure, _ => .fail failure
  | .act action next, rest => .act action fun answer => (next answer).bind rest

instance : Monad (Script Act Res ε) where
  pure := .done
  bind := Script.bind

def perform (action : Act) : Script Act Res ε (Res action) := .act action .done

def expect (value : Option α) (failure : ε) : Script Act Res ε α :=
  match value with
  | some a => .done a
  | none => .fail failure

def ensure (condition : Prop) [Decidable condition] (failure : ε) : Script Act Res ε Unit :=
  if condition then .done () else .fail failure

end Script

/-! ### Actions on a shared state -/

/-- The shared state, with the journal of the actions on it. -/
structure Site (σ Act : Type) where
  journal : List (Event σ (Nat × Act))
  shared : σ

variable {σ Act ω ι : Type} {Res : Act → Type} {ε α β : Type}

def Site.act (exec : (action : Act) → ω → σ → Res action × σ) (thread : Nat) (action : Act) (env : ω)
    (site : Site σ Act) : Site σ Act where
  journal := site.journal ++ [⟨site.shared, (thread, action), (exec action env site.shared).2⟩]
  shared := (exec action env site.shared).2

/-- A site with the scripts that have still to act on it. -/
structure Pool (σ Act : Type) (Res : Act → Type) (ε α : Type) extends Site σ Act where
  threads : List (Script Act Res ε α)

inductive PoolInput (ω ι : Type)
  /-- A new script. -/
  | spawn (request : ι)
  /-- The next action of a script. -/
  | advance (thread : Nat) (env : ω)

def Pool.acted (exec : (action : Act) → ω → σ → Res action × σ) (pool : Pool σ Act Res ε α)
    (thread : Nat) (action : Act) (next : Res action → Script Act Res ε α) (env : ω) :
    Pool σ Act Res ε α where
  toSite := pool.toSite.act exec thread action env
  threads := pool.threads.set thread (next (exec action env pool.shared).1)

/-- One step of a pool; a script that has ended has no next action. -/
def Pool.next (exec : (action : Act) → ω → σ → Res action × σ)
    (script : ι → Script Act Res ε α) (pool : Pool σ Act Res ε α) :
    PoolInput ω ι → Pool σ Act Res ε α
  | .spawn request => { pool with threads := pool.threads ++ [script request] }
  | .advance thread env =>
    match pool.threads[thread]? with
    | some (.act action next) => pool.acted exec thread action next env
    | _ => pool

/-! ### Interleavings -/

/-- Any number of scripts on one state, each action an event of the journal. -/
def interleave (exec : (action : Act) → ω → σ → Res action × σ)
    (script : ι → Script Act Res ε α) (start : σ) (inputs : List (PoolInput ω ι)) :
    Pool σ Act Res ε α :=
  inputs.foldl (Pool.next exec script) ⟨⟨[], start⟩, []⟩

/-- What a new script and every single action keep holds of all interleavings. -/
theorem interleave_induction {exec : (action : Act) → ω → σ → Res action × σ}
    {script : ι → Script Act Res ε α} {start : σ} {motive : Pool σ Act Res ε α → Prop}
    (initial : motive ⟨⟨[], start⟩, []⟩)
    (spawn : ∀ pool request, motive pool →
      motive { pool with threads := pool.threads ++ [script request] })
    (advance : ∀ pool thread action next env, motive pool →
      pool.threads[thread]? = some (.act action next) →
        motive (pool.acted exec thread action next env))
    (inputs : List (PoolInput ω ι)) : motive (interleave exec script start inputs) := by
  induction inputs using List.reverseRecOn with
  | nil => exact initial
  | append_singleton inputs input ih =>
    have last : interleave exec script start (inputs ++ [input]) =
        (interleave exec script start inputs).next exec script input := by
      rw [interleave, List.foldl_append]
      rfl
    rw [last]
    cases input with
    | spawn request => exact spawn _ request ih
    | advance thread env =>
      simp only [Pool.next]
      split
      · rename_i action next here
        exact advance _ thread action next env ih here
      · exact ih

end EthosContracts.Lib
