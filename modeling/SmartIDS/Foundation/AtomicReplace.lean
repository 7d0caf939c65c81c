import SmartIDS.Foundation.Machine
set_option autoImplicit false

/-!
# Foundation: files replaced by renaming

A file is replaced by writing a sibling and renaming it.  However far an attempt
comes, a reader finds the contents of the last attempt that renamed: what is torn is
the sibling, which is never read.
-/

namespace SmartIDS.Foundation

/-- How far an attempt to replace a file comes. -/
inductive Replacing (β : Type) where
  /-- The sibling cannot be opened. -/
  | refused
  /-- Part of the contents is written to the sibling. -/
  | torn (part : β)
  /-- The sibling is written and not renamed. -/
  | unrenamed
  | renamed

/-- A file and its sibling; `none` where there is no file. -/
structure Renamed (β : Type) where
  file : Option β
  sibling : Option β

namespace Renamed

variable {β : Type}

/-- An attempt to replace the file. -/
def save (s : Renamed β) (content : β) : Replacing β → Renamed β
  | .refused => s
  | .torn part => { s with sibling := some part }
  | .unrenamed => { s with sibling := some content }
  | .renamed => ⟨some content, none⟩

/-- Attempts one after the other. -/
def saves : Machine (Renamed β) (β × Replacing β) Unit where
  step s attempt := (s.save attempt.1 attempt.2, ())

/-- The contents of the last attempt that renamed. -/
def lastRenamed (attempts : List (β × Replacing β)) : Option β :=
  attempts.foldl (fun last attempt =>
    match attempt.2 with
    | .renamed => some attempt.1
    | _ => last) none

@[simp] theorem lastRenamed_nil : lastRenamed ([] : List (β × Replacing β)) = none := rfl

theorem lastRenamed_concat (attempts : List (β × Replacing β)) (content : β) (r : Replacing β) :
    lastRenamed (attempts ++ [(content, r)]) =
      match r with
      | .renamed => some content
      | _ => lastRenamed attempts := by
  unfold lastRenamed
  rw [List.foldl_concat]

/-- A reader finds what was renamed last. -/
theorem file_exec (s : Renamed β) (attempts : List (β × Replacing β)) :
    (saves.exec s attempts).file = (lastRenamed attempts).or s.file := by
  have hstep : ∀ (attempts : List (β × Replacing β)) (attempt : β × Replacing β) (t : Renamed β),
      t.file = (lastRenamed attempts).or s.file →
      (saves.step t attempt).1.file = (lastRenamed (attempts ++ [attempt])).or s.file := by
    rintro attempts ⟨content, r⟩ t ht
    rw [lastRenamed_concat]
    cases r with
    | renamed => rfl
    | refused => exact ht
    | torn part => exact ht
    | unrenamed => exact ht
  exact saves.exec_history rfl hstep attempts

end Renamed

end SmartIDS.Foundation
