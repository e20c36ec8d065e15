import GSharp.Builtin
import GSharp.Proofs.Preservation

namespace GSharp

/-- The canvas and the numbers drawn at the start stay as they are. -/
structure Library.Steady (before after : Library) : Prop where
  width : after.width = before.width
  height : after.height = before.height
  randoms : after.randoms = before.randoms

instance : IsPreorder Library Library.Steady where
  refl _ := ⟨rfl, rfl, rfl⟩
  trans _ _ _ first second :=
    ⟨second.width.trans first.width, second.height.trans first.height,
      second.randoms.trans first.randoms⟩

namespace Library

theorem step_steady {α : Type} (draw : Generator → α × Generator) :
    Preserves Steady (step draw) := fun _ => ⟨rfl, rfl, rfl⟩

theorem step_map {α β : Type} (draw : Generator → α × Generator) (change : α → β) :
    step (fun generator => (change (draw generator).1, (draw generator).2)) = do
      return change (← step draw) := rfl

theorem step_amount_eq : step amount = do
    return (← step ((Generator.below64 18).always (Generator.below_ne_error (Nat.succ_pos 17)))) + 2 :=
  step_map ((Generator.below64 18).always (Generator.below_ne_error (Nat.succ_pos 17))) (· + 2)

theorem coordinate_steady (side : Nat) : Preserves Steady (coordinate side) := step_steady _

theorem draw_steady {α : Type} (draw : Generator.Sampling α) :
    Preserves Steady (Library.draw draw).run := by
  intro library
  simp only [Library.draw, ExceptT.run]
  cases draw library.generator with
  | error text => exact refl_of Steady library
  | ok drawn => exact ⟨rfl, rfl, rfl⟩

theorem point_steady : Preserves Steady point :=
  .bind .get fun _ => .bind (coordinate_steady _) fun _ => .bind (coordinate_steady _) fun _ =>
    .pure _

theorem measure_steady : Preserves Steady measure :=
  .bind .get fun _ => .bind (coordinate_steady _) fun _ => .pure _

theorem figure_steady (kind : FigureKind) : Preserves Steady (figure kind) := by
  cases kind with
  | point => exact .bind point_steady fun _ => .pure _
  | line | segment | ray =>
    exact .bind point_steady fun _ => .bind point_steady fun _ => .pure _
  | circle => exact .bind point_steady fun _ => .bind measure_steady fun _ => .pure _
  | arc =>
    exact .bind point_steady fun _ => .bind point_steady fun _ => .bind point_steady fun _ =>
      .bind measure_steady fun _ => .pure _
  | measure => exact .bind measure_steady fun _ => .pure _

theorem figures_steady (kind : FigureKind) (n : Nat) : Preserves Steady (figures kind n) := by
  induction n with
  | zero => exact .pure _
  | succ n ih => exact .bind (figure_steady kind) fun _ => .bind ih fun _ => .pure _

theorem sequence_steady (kind : FigureKind) : Preserves Steady (sequence kind) :=
  .bind (step_steady _) fun n => .bind (figures_steady kind n) fun _ => .pure _

theorem sample_steady (lower upper : Float) (line : Nat) :
    Preserves Steady (sample lower upper line).run := by
  unfold sample
  split
  · exact .throw _
  · exact draw_steady _

theorem along_steady (first second : Point) (lower upper : Float) (line : Nat) :
    Preserves Steady (along first second lower upper line).run := by
  simp only [along]
  split
  · exact .done _
  · exact .andThen (sample_steady _ _ _) fun _ => .done _

theorem pointOn_steady (figure : Figure) (line : Nat) :
    Preserves Steady (pointOn figure line).run := by
  cases figure with
  | point | measure => exact .done _
  | segment first second => exact .andThen (along_steady _ _ _ _ _) fun _ => .done _
  | ray origin through =>
    exact .andThen (.lift .get) fun _ => .andThen (along_steady _ _ _ _ _) fun _ => .done _
  | line first second =>
    exact .andThen (.lift .get) fun _ => .andThen (along_steady _ _ _ _ _) fun _ => .done _
  | circle c => exact .andThen (draw_steady _) fun _ => .done _
  | arc a => exact .andThen (sample_steady _ _ _) fun _ => .done _

end Library

namespace Builtin

theorem lift_steady {α : Type} (result : Except EvalError α) :
    Preserves Library.Steady (lift result).run := by
  cases result with
  | ok value => exact .done value
  | error error => exact .throw _

theorem apply_steady (builtin : Builtin) (arguments : List Value) (line : Nat) :
    Preserves Library.Steady (builtin.apply arguments line).run := by
  unfold apply
  split
  · exact .andThen (.lift .get) fun _ => .done _
  · exact .andThen (.lift (Library.sequence_steady _)) fun _ => .done _
  · exact .andThen (lift_steady _) fun figure =>
      .andThen (Library.pointOn_steady figure line) fun _ => .done _
  · split
    · exact lift_steady _
    · exact .throw _

end Builtin

end GSharp
