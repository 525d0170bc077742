import LeafSurvey.Survey
import LeafSurvey.Proofs.Placing

/-!
# What is written is there

A value is written as the text of its layout, and the file is found again under
its path with these bytes.

* `writeValue_eq_ok`: a value is written where a file can be placed, when its
  layout is whole;
* `read_writeValue`: after a value is written, its path reads `fileBytes` of the
  value.
-/

namespace LeafSurvey

namespace Survey

/-- The bytes of the file that a value is written to. -/
def fileBytes (v : Value) : ByteArray :=
  (String.ofList (Json.fileText v).items).toUTF8

theorem writeValue_eq_ok {path : FilePath} {v : Value} {s left : Store} :
    writeValue path v s = (.ok (), left)
      ↔ s.place path (fileBytes v) = (.ok (), left)
          ∧ (Json.fileText v).broken = none := by
  simp only [writeValue, fileBytes]
  rcases s.place path (String.ofList (Json.fileText v).items).toUTF8 with
    ⟨_ | _, made⟩
  · simp
  · cases (Json.fileText v).broken with
    | none => simp
    | some cause => simp

/-- A layout that breaks off leaves a file with what comes before the break. -/
theorem writeValue_of_broken {path : FilePath} {v : Value} {s left : Store}
    {cause : Json.LayoutFault}
    (hplace : s.place path (fileBytes v) = (.ok (), left))
    (h : (Json.fileText v).broken = some cause) :
    writeValue path v s = (.error (.misuse (.ofLayout cause)), left) := by
  rw [fileBytes] at hplace
  simp only [writeValue, hplace, h]

theorem read_writeValue {path : FilePath} {v : Value} {s left : Store}
    (h : writeValue path v s = (.ok (), left)) :
    left.read path = .ok (fileBytes v) := by
  obtain ⟨_, hfile⟩ := Store.receives_place (writeValue_eq_ok.mp h).1
  exact hfile.read

/-- Wherever two values are written, their files hold the same bytes. -/
def WrittenAlike (v w : Value) : Prop :=
  ∀ path path' s s' left left', writeValue path v s = (.ok (), left) →
    writeValue path' w s' = (.ok (), left') → left.read path = left'.read path'

theorem writtenAlike_refl (v : Value) : WrittenAlike v v := by
  intro path path' s s' left left' h h'
  rw [read_writeValue h, read_writeValue h']

end Survey

end LeafSurvey
