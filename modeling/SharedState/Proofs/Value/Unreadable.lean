import SharedState.Proofs.Except
import SharedState.Value.Wire

/-!
# What a wire value is refused for

A wire value that cannot be read as a wanted kind is refused as a malformed
update of the key that it was meant for, and for nothing else. The readers are
put together from steps, and so is the statement, by the laws of `FailsOnly`.
In one place a reader could fail in another way: building a matrix from
components complains of a mismatch of types if there are not as many as there
should be. That they are as many has been checked before.
-/

namespace SharedState

/-- All that the computation can fail with is a malformed update of the key. -/
def Blames {α : Type} (key : String) (x : Except Error α) : Prop :=
  FailsOnly (fun error => ∃ reason, error = .malformedUpdate key reason) x

theorem Blames.malformed {α : Type} {key : String} (reason : String) :
    Blames (α := α) key (.error (.malformedUpdate key reason)) :=
  FailsOnly.error ⟨reason, rfl⟩

namespace Value

variable (key : String) (json : Json)

theorem readInteger_blames : Blames key (readInteger key json) := by
  simp only [readInteger]
  split
  · exact .ok _
  · exact .malformed _

theorem readFloat_blames : Blames key (readFloat key json) := by
  simp only [readFloat]
  split
  · exact .ok _
  · exact .malformed _

theorem readBoolean_blames : Blames key (readBoolean key json) := by
  simp only [readBoolean]
  split
  · exact .ok _
  · exact .malformed _

theorem readString_blames : Blames key (readString key json) := by
  unfold readString
  split
  · exact .ok _
  · exact .malformed _

theorem readBytes_blames : Blames key (readBytes key json) := by
  unfold readBytes
  split
  · split
    · exact .ok _
    · exact .malformed _
  · exact .malformed _

theorem readComponent_blames (word : List Char) : Blames key (readComponent key word) := by
  unfold readComponent
  split
  · exact .ok _
  · exact .malformed _

theorem ofComponents_blames {components : List Single} (h : components.length = matrixSize) :
    Blames key (Matrix.ofComponents key components) := by
  rw [Matrix.ofComponents, Matrix.ofList?, dif_pos h]
  exact .ok _

theorem readMatrix_blames : Blames key (readMatrix key json) := by
  have hbuild : ∀ components : List Single, Blames key (
      if components.length = matrixSize then Matrix.ofComponents key components
      else .error (.malformedUpdate key
        s!"matrix needs {matrixSize} components, found {components.length}")) := by
    intro components
    split
    · next h => exact ofComponents_blames key h
    · exact .malformed _
  unfold readMatrix
  split
  · refine FailsOnly.bind (.mapM (fun item => ?_) _) fun c _ => hbuild c
    exact (readFloat_blames key item).map _
  · exact FailsOnly.bind (.mapM (readComponent_blames key) _) fun c _ => hbuild c
  · exact FailsOnly.bind (Blames.malformed _) fun c _ => hbuild c

theorem viewerField_blames (members : List (String × Json)) (name : String) :
    Blames key (viewerField key members name) := by
  unfold viewerField
  split
  · exact .ok _
  · exact .malformed _

theorem readViewer_blames : Blames key (readViewer key json) := by
  unfold readViewer
  split
  · next members =>
    have hfield := viewerField_blames key members
    refine (hfield _).bind fun width _ => (readInteger_blames key width).bind fun _ _ => ?_
    refine (hfield _).bind fun height _ => (readInteger_blames key height).bind fun _ _ => ?_
    refine (hfield _).bind fun projection _ => (readMatrix_blames key projection).bind fun _ _ => ?_
    refine (hfield _).bind fun modelview _ => (readMatrix_blames key modelview).bind fun _ _ => ?_
    refine (hfield _).bind fun timestamp _ => (readFloat_blames key timestamp).bind fun _ _ => ?_
    refine (hfield _).bind fun sceneView _ => ?_
    split
    · exact .ok _
    · exact Blames.malformed _
  · exact .malformed _

/-- What cannot be read is blamed on the key it was meant for. -/
theorem ofWire_blames (kind : Kind) : Blames key (ofWire key kind json) := by
  cases kind with
  | integer => exact (readInteger_blames key json).map _
  | float => exact (readFloat_blames key json).map _
  | boolean => exact (readBoolean_blames key json).map _
  | string => exact (readString_blames key json).map _
  | bytes => exact (readBytes_blames key json).map _
  | matrix => exact (readMatrix_blames key json).map _
  | viewer => exact (readViewer_blames key json).map _

end Value

end SharedState
