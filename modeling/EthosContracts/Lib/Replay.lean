/-
**Replays: the run that a list of inputs gives.**
-/

import EthosContracts.Lib.Run
import EthosContracts.Lib.Transaction

namespace EthosContracts.Lib

variable {ε σ ι : Type}

def playStep (exec : ι → Tx ε σ Unit) (record : List (Event σ ι) × σ) (input : ι) :
    List (Event σ ι) × σ :=
  match exec input record.2 with
  | .ok (_, t) => (record.1 ++ [⟨record.2, input, t⟩], t)
  | .error _ => record

/-- The inputs one after the other; a failing one leaves no trace. -/
def play (exec : ι → Tx ε σ Unit) (start : σ) (inputs : List ι) : List (Event σ ι) × σ :=
  inputs.foldl (playStep exec) ([], start)

variable {exec : ι → Tx ε σ Unit} {step : σ → ι → σ → Prop} {start : σ}

variable {input : ι} {inputs : List ι}

theorem playStep_run {record : List (Event σ ι) × σ}
    (run : Run step start record.1 record.2)
    (allowed : ∀ s t, exec input s = .ok ((), t) → step s input t) :
    Run step start (playStep exec record input).1 (playStep exec record input).2 := by
  unfold playStep
  split
  · rename_i t ran
    exact run.snoc (allowed _ _ ran)
  · exact run

theorem play_run (allowed : ∀ input ∈ inputs, ∀ s t, exec input s = .ok ((), t) → step s input t) :
    Run step start (play exec start inputs).1 (play exec start inputs).2 := by
  refine List.foldlRecOn inputs (playStep exec)
    (motive := fun record => Run step start record.1 record.2) ?_ ?_
  · exact .nil
  · exact fun record run input member => playStep_run run (allowed input member)

/-- The input goes through. -/
def Executes (exec : ι → Tx ε σ Unit) (s : σ) (input : ι) (t : σ) : Prop :=
  exec input s = .ok ((), t)

theorem play_executes (exec : ι → Tx ε σ Unit) (start : σ) (inputs : List ι) :
    Run (Executes exec) start (play exec start inputs).1 (play exec start inputs).2 :=
  play_run fun _ _ _ _ ran => ran

def playNext (exec : ι → Tx ε σ Unit) (start : σ) (inputs : List ι) (input : ι) : Event σ ι where
  before := (play exec start inputs).2
  input := input
  after := (exec input).after (play exec start inputs).2

theorem play_sublist (exec : ι → Tx ε σ Unit) (start : σ) (inputs : List ι) :
    ((play exec start inputs).1.map Event.input).Sublist inputs := by
  suffices ∀ record : List (Event σ ι) × σ,
      ((inputs.foldl (playStep exec) record).1.map Event.input).Sublist
        (record.1.map Event.input ++ inputs) from this ([], start)
  induction inputs with
  | nil => exact fun record => by simp
  | cons input rest ih =>
    intro record
    refine (ih (playStep exec record input)).trans ?_
    unfold playStep
    split
    · simp
    · exact (List.sublist_cons_self input rest).append_left _

/-- The events of a replay come from its inputs. -/
theorem play_inputs (exec : ι → Tx ε σ Unit) (start : σ) (inputs : List ι) :
    ∀ event ∈ (play exec start inputs).1, event.input ∈ inputs := fun _ member =>
  (play_sublist exec start inputs).subset (List.mem_map_of_mem member)

/-- If no input fails, the events are all of them. -/
theorem play_all (all : (play exec start inputs).1.length = inputs.length) :
    (play exec start inputs).1.map Event.input = inputs :=
  (play_sublist exec start inputs).eq_of_length (by rw [List.length_map, all])

end EthosContracts.Lib
