import GSharp.Proofs.Evaluation.Alike
import GSharp.Proofs.Evaluation.Permanence
import GSharp.Proofs.Evaluation.WellFormed

namespace GSharp

/-- The last value of the parts, and the errors of all of them. A crash ends them. -/
theorem Program.eval_append (beyond : Beyond) (first second : Program) :
    Program.eval beyond (first ++ second) = do
      let before ← first.eval beyond
      let after ← second.eval beyond
      return (after.1.or before.1, before.2 ++ after.2) := by
  induction first with
  | nil => simp [Program.eval]
  | cons instruction rest ih =>
    rw [List.cons_append, Program.eval, Program.eval, ih]
    simp only [bind_assoc]
    refine bind_congr fun outcome => bind_congr fun before => ?_
    cases outcome <;> simp [Option.or_assoc]

namespace Context

theorem WellFormed.run {context : Context} (wellFormed : context.WellFormed) {program : Program}
    (canonical : Statement.allCanonical program = true) : (context.run program).2.WellFormed := by
  have watched : Watched.WellFormed (context, []) := ⟨wellFormed, List.forall_mem_nil _⟩
  have same := congrArg Prod.snd (Program.watch_eq_run none 0 program (context, []))
  exact same ▸ (Program.watch_wellFormed none 0 canonical watched).1.context

/-- What was shown earlier does not bear on a state. -/
theorem WellFormed.alike_self {context : Context} (wellFormed : context.WellFormed)
    {R : Nat → Nat → Prop} (lines : ∀ line ∈ context.scope.lines, R line line)
    {log earlier : List Event} (parts : context.log = log ++ earlier) :
    Alike R earlier { context with log } context :=
  { scope := wellFormed.scope.alike_self lines
    library := rfl
    settings := rfl
    host := rfl
    files := rfl
    log := parts
    callDepth := rfl
    imported := rfl }

end Context

end GSharp
