import WorkflowCanvas.Decode.Scalar

/-! Titles. A step group and the step it becomes share one kind of title, so that a title
accepted on the canvas is accepted in the workflow. -/
namespace WorkflowCanvas
set_option autoImplicit false

/-- A text that is not blank and has at most a hundred characters. -/
structure Title where
  text : String
  fits : text.length ≤ 100
  notBlank : Text.isBlank text = false
deriving DecidableEq

namespace Title

/-- A title; the length is looked at before the blanks, whose cause the caller names. -/
def ofJson (blank : Cause) : Json → Checked Title
  | .str s =>
    if fits : s.length ≤ 100 then
      if notBlank : Text.isBlank s = false then .accepted ⟨s, fits, notBlank⟩
      else .stop blank
    else .stop (.tooLong 100)
  | _ => .stop .notText

theorem text_ne_empty (t : Title) : t.text ≠ "" := Text.not_isBlank_empty t.notBlank

theorem ofJson_text (blank : Cause) (t : Title) : ofJson blank (.str t.text) = .accepted t := by
  simp [ofJson, t.fits, t.notBlank]

end Title

/-- What a step is for, in at most five hundred characters. -/
abbrev Purpose := Bounded 500

end WorkflowCanvas
