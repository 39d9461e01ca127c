/-! Searching finitely many places along a successor function: everything that can be reached
from a place, and a place at which a walk closes a cycle. Both walks end because each
of the places is opened once. -/
namespace WorkflowCanvas.Search
set_option autoImplicit false

variable {α : Type} [DecidableEq α]

/-- How many of the places are not yet known. -/
def unknown (places known : List α) : Nat := (places.filter fun a => decide (a ∉ known)).length

theorem unknown_le {places known more : List α} (h : ∀ a ∈ known, a ∈ more) :
    unknown places more ≤ unknown places known := by
  unfold unknown
  induction places with
  | nil => simp
  | cons a rest ih =>
    by_cases hm : a ∈ more
    · by_cases hk : a ∈ known
      · simpa [hm, hk] using ih
      · simp only [List.filter_cons, hm, hk, not_true, decide_false, not_false_eq_true,
          decide_true, if_true, List.length_cons]
        exact Nat.le_succ_of_le ih
    · have hk : a ∉ known := fun hk => hm (h a hk)
      simpa [hm, hk] using ih

theorem unknown_lt {places known more : List α} {a : α} (h : ∀ a ∈ known, a ∈ more)
    (hu : a ∈ places) (hk : a ∉ known) (hm : a ∈ more) :
    unknown places more < unknown places known := by
  induction places with
  | nil => cases hu
  | cons b rest ih =>
    by_cases hb : b = a
    · subst hb
      have : unknown rest more ≤ unknown rest known := unknown_le h
      simp only [unknown] at this ⊢
      simp only [List.filter_cons, hm, hk, not_true, decide_false, not_false_eq_true,
        decide_true, if_true, List.length_cons]
      exact Nat.lt_succ_of_le this
    · have hu' : a ∈ rest := (List.mem_cons.1 hu).resolve_left (Ne.symm hb)
      have ih := ih hu'
      simp only [unknown] at ih ⊢
      by_cases hbm : b ∈ more
      · by_cases hbk : b ∈ known
        · simpa [hbm, hbk] using ih
        · simp only [List.filter_cons, hbm, hbk, not_true, decide_false, not_false_eq_true,
            decide_true, if_true, List.length_cons]
          exact Nat.lt_succ_of_lt ih
      · have hbk : b ∉ known := fun hk => hbm (h b hk)
        simpa [hbm, hbk] using ih

/-! ## Reaching -/

/-- Opens the places of a queue in turn and queues those of their successors that are not yet
seen; each of the places is opened once. -/
def reach (places : List α) (next : α → List α) (queue seen : List α) : List α :=
  match queue with
  | [] => seen
  | a :: rest =>
    if a ∈ places ∧ a ∉ seen then
      reach places next (rest ++ (next a).filter fun b => decide (b ∉ a :: seen)) (a :: seen)
    else reach places next rest seen
termination_by (unknown places seen, queue.length)
decreasing_by
  · rename_i h
    exact Prod.Lex.left _ _
      (unknown_lt (fun _ hb => List.mem_cons_of_mem _ hb) h.1 h.2 List.mem_cons_self)
  · exact Prod.Lex.right _ (by simp)

/-! ## Closing a cycle -/

/-- A place on the current path with the successors that are still to be tried. -/
abbrev Visit (α : Type) := α × List α

/-- The places of the current path, the last first. -/
def path (visits : List (Visit α)) : List α := visits.map Prod.fst

/-- How much is left to try on the current path. -/
def left : List (Visit α) → Nat
  | [] => 0
  | visit :: rest => visit.2.length + 1 + left rest

/-- Walks on from the current path: the place of the path that is met again, or else all places
that are finished without a cycle. -/
def walk (places : List α) (next : α → List α) (visits : List (Visit α)) (finished : List α) :
    Except α (List α) :=
  match visits with
  | [] => .ok finished
  | (a, []) :: rest => walk places next rest (a :: finished)
  | (a, b :: others) :: rest =>
    if b ∈ path ((a, b :: others) :: rest) then .error b
    else if b ∈ places ∧ b ∉ finished then
      walk places next ((b, next b) :: (a, others) :: rest) finished
    else walk places next ((a, others) :: rest) finished
termination_by (unknown places (path visits ++ finished), left visits)
decreasing_by
  · have : unknown places (path rest ++ a :: finished) =
        unknown places (path ((a, []) :: rest) ++ finished) :=
      Nat.le_antisymm (unknown_le (by simp [path]; grind)) (unknown_le (by simp [path]; grind))
    rw [this]
    exact Prod.Lex.right _ (by simp [left])
  · rename_i hpath h
    refine Prod.Lex.left _ _ (unknown_lt (a := b) ?_ h.1 ?_ ?_)
    · simp [path]; grind
    · simp only [List.mem_append, not_or]
      exact ⟨hpath, h.2⟩
    · simp [path]
  · exact Prod.Lex.right _ (by simp [left])

/-- Walks from each root that is not finished; the first place that closes a cycle, if any. -/
def closing? (places : List α) (next : α → List α) : List α → List α → Option α
  | [], _ => none
  | root :: roots, finished =>
    if root ∈ finished then closing? places next roots finished
    else match walk places next [(root, next root)] finished with
      | .error a => some a
      | .ok finished => closing? places next roots finished

end WorkflowCanvas.Search
