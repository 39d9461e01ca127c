/-! Sorting by bisection, with a comparison that may fail. The run that a row starts with is kept,
turned around if it falls; each later item is put where halving the row finds its place, behind
its equals. Which items are compared is part of the rule, for a failure is the answer. -/
namespace WorkflowCanvas.Bisection
set_option autoImplicit false

variable {α ε : Type}

/-- The rest of a run that does not fall, after its last item so far, and what follows the run. -/
def rise (less : α → α → Except ε Bool) (last : α) : List α → Except ε (List α × List α)
  | [] => .ok ([], [])
  | b :: rest => do
    if ← less b last then return ([], b :: rest)
    let (run, others) ← rise less b rest
    return (b :: run, others)

/-- The rest of a run that falls, after its last item so far, and what follows the run. -/
def fall (less : α → α → Except ε Bool) (last : α) : List α → Except ε (List α × List α)
  | [] => .ok ([], [])
  | b :: rest => do
    if ← less b last then
      let (run, others) ← fall less b rest
      return (b :: run, others)
    return ([], b :: rest)

/-- The run that a row starts with, in order, and what follows it. -/
def firstRun (less : α → α → Except ε Bool) : List α → Except ε (List α × List α)
  | a :: b :: rest => do
    if ← less b a then
      let (run, others) ← fall less b rest
      return (run.reverse ++ [b, a], others)
    let (run, others) ← rise less b rest
    return (a :: b :: run, others)
  | items => .ok (items, [])

/-- Puts an item into a sorted row, behind its equals. -/
def place (less : α → α → Except ε Bool) (a : α) (row : List α) : Except ε (List α) :=
  match _h : row.drop (row.length / 2) with
  | [] => .ok [a]
  | b :: after => do
    if ← less a b then
      return (← place less a (row.take (row.length / 2))) ++ b :: after
    return row.take (row.length / 2) ++ b :: (← place less a after)
termination_by row.length
decreasing_by
  all_goals
    have := congrArg List.length _h
    simp only [List.length_drop, List.length_take, List.length_cons] at this ⊢
    omega

/-- The items in order. -/
def sort (less : α → α → Except ε Bool) (items : List α) : Except ε (List α) := do
  let (run, others) ← firstRun less items
  others.foldlM (fun row a => place less a row) run

end WorkflowCanvas.Bisection
