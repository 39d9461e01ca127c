import WorkflowCanvas.Workflow.Verdict

/-! What a message tells of its violation. Main statements: the messages of shared handles and those
of branchings are known by the words that they open with, and no other violation has the message of
an end that is not reached. What tells them apart is the first character: no two sorts of violation
share a letter but the missing ends and the end that is not reached, and a count has none. -/
namespace WorkflowCanvas
set_option autoImplicit false

/-! ## Openings -/

namespace Text
variable {opening text : String} {c : Char}

/-- Whether a text opens with another. -/
def opensWith (opening text : String) : Bool := opening.toList.isPrefixOf text.toList

theorem opensWith_iff : opensWith opening text = true ↔ opening.toList <+: text.toList :=
  List.isPrefixOf_iff_prefix

theorem head?_eq_of_prefix (h : opening.toList <+: text.toList)
    (hc : opening.toList.head? = some c) : text.toList.head? = some c := by
  obtain ⟨rest, hrest⟩ := h
  rw [← hrest, List.head?_append, hc, Option.some_or]

/-- A text that opens with a count begins with a digit. -/
theorem isDigit_of_count_prefix {count : Nat} (h : (toString count).toList <+: text.toList)
    (hc : text.toList.head? = some c) : c.isDigit = true := by
  have hdigits : (toString count).toList = Nat.toDigits 10 count := by
    rw [Nat.toString_eq_ofList_toDigits, String.toList_ofList]
  obtain ⟨d, rest, hd⟩ := List.exists_cons_of_ne_nil (hdigits ▸ Nat.toDigits_ne_nil)
  have hfirst : text.toList.head? = some d :=
    head?_eq_of_prefix h (by rw [hd, List.head?_cons])
  obtain rfl : c = d := Option.some.inj (hc.symm.trans hfirst)
  rw [hdigits] at hd
  exact Nat.isDigit_of_mem_toDigits (by decide) (by decide) (hd ▸ List.mem_cons_self)

end Text

/-! ## Messages -/

namespace Violation
variable {v : Violation} {c : Char}

/-- The words, or the count, with which a message begins. -/
def opening : Violation → String
  | noStart => "Start node is required"
  | severalStarts _ => "Only one start node is allowed (found "
  | noEnd => "End node is required"
  | severalEnds _ => "Only one end node is allowed (found "
  | sharedHandle _ _ => "Handle "
  | endUnreachable => "End node is not reachable from Start node"
  | disconnected nodes => toString nodes.length
  | deadEnds nodes => toString nodes.length
  | cycle _ => "Cycle detected in workflow graph at node '"
  | branching _ _ _ => "Node '"

theorem opening_prefix (v : Violation) : v.opening.toList <+: v.message.toList := by
  unfold message
  cases v with
  | noStart => exact List.prefix_rfl
  | noEnd => exact List.prefix_rfl
  | endUnreachable => exact List.prefix_rfl
  | _ =>
    simp only [String.toList_append, List.append_assoc]
    exact List.prefix_append _ _

/-- The letter with which a message begins, unless it begins with a count. -/
def letter? : Violation → Option Char
  | noStart => some 'S'
  | severalStarts _ => some 'O'
  | noEnd => some 'E'
  | severalEnds _ => some 'O'
  | sharedHandle _ _ => some 'H'
  | endUnreachable => some 'E'
  | disconnected _ => none
  | deadEnds _ => none
  | cycle _ => some 'C'
  | branching _ _ _ => some 'N'

theorem head?_opening (h : v.letter? = some c) : v.opening.toList.head? = some c := by
  cases v with
  | disconnected nodes => cases h
  | deadEnds nodes => cases h
  | _ => simpa [opening, letter?] using h

theorem opening_eq_count (h : v.letter? = none) : ∃ count : Nat, v.opening = toString count := by
  cases v with
  | disconnected nodes => exact ⟨nodes.length, rfl⟩
  | deadEnds nodes => exact ⟨nodes.length, rfl⟩
  | _ => cases h

theorem letter?_eq_some (h : v.message.toList.head? = some c) (hc : c.isDigit = false) :
    v.letter? = some c := by
  cases hl : v.letter? with
  | some d => exact (Text.head?_eq_of_prefix v.opening_prefix (head?_opening hl)).symm.trans h
  | none =>
    obtain ⟨count, hcount⟩ := opening_eq_count hl
    have hdigit := Text.isDigit_of_count_prefix (hcount ▸ v.opening_prefix) h
    rw [hc] at hdigit
    cases hdigit

theorem opensWith_handle_iff :
    Text.opensWith "Handle " v.message = true ↔ ∃ key edges, v = .sharedHandle key edges := by
  rw [Text.opensWith_iff]
  constructor
  · intro hp
    have h : v.letter? = some 'H' := letter?_eq_some (Text.head?_eq_of_prefix hp rfl) rfl
    cases v with
    | sharedHandle key edges => exact ⟨key, edges, rfl⟩
    | _ => simp [letter?] at h
  · rintro ⟨key, edges, rfl⟩
    exact opening_prefix (.sharedHandle key edges)

theorem opensWith_node_iff :
    Text.opensWith "Node '" v.message = true ↔
      ∃ node count flow, v = .branching node count flow := by
  rw [Text.opensWith_iff]
  constructor
  · intro hp
    have h : v.letter? = some 'N' := letter?_eq_some (Text.head?_eq_of_prefix hp rfl) rfl
    cases v with
    | branching node count flow => exact ⟨node, count, flow, rfl⟩
    | _ => simp [letter?] at h
  · rintro ⟨node, count, flow, rfl⟩
    exact opening_prefix (.branching node count flow)

theorem message_eq_endUnreachable_iff :
    v.message = endUnreachable.message ↔ v = .endUnreachable := by
  constructor
  · intro hm
    have h : v.letter? = some 'E' := letter?_eq_some (by rw [hm]; rfl) rfl
    cases v with
    | endUnreachable => rfl
    | noEnd => exact absurd hm (by decide)
    | _ => simp [letter?] at h
  · rintro rfl
    rfl

end Violation
end WorkflowCanvas
