import Mathlib.Algebra.BigOperators.Group.List.Basic
import Mathlib.Algebra.GroupWithZero.Nat
import WorkflowCanvas.Proofs.Graph.Review

/-! Searching a graph for a cycle. Main statement: the search comes to an end within one turn for
each node and each edge, it gives nothing exactly when no node lies on a cycle of edges, and what it
gives is a node on such a cycle. -/
namespace WorkflowCanvas
open Relation
set_option autoImplicit false

namespace Search
variable {α : Type} [DecidableEq α] {next : α → List α}

/-! ## Turns of a walk -/

/-- Walks on for a number of turns, of which each finishes a place or tries one successor; nothing
when the walk is not over by then. -/
def walkFor (places : List α) (next : α → List α) :
    Nat → List (Visit α) → List α → Option (Except α (List α))
  | 0, _, _ => none
  | _ + 1, [], finished => some (.ok finished)
  | turns + 1, (a, []) :: rest, finished => walkFor places next turns rest (a :: finished)
  | turns + 1, (a, b :: others) :: rest, finished =>
    if b ∈ path ((a, b :: others) :: rest) then some (.error b)
    else if b ∈ places ∧ b ∉ finished then
      walkFor places next turns ((b, next b) :: (a, others) :: rest) finished
    else walkFor places next turns ((a, others) :: rest) finished

/-- The turns that the unknown ones of some places can take: one for each successor, and one to
finish the place. -/
def ahead (next : α → List α) (known : List α) : List α → Nat
  | [] => 0
  | a :: rest => (if a ∈ known then 0 else (next a).length + 1) + ahead next known rest

theorem ahead_le {places known more : List α} (h : ∀ a ∈ known, a ∈ more) :
    ahead next more places ≤ ahead next known places := by
  induction places with
  | nil => exact Nat.le_refl _
  | cons a rest ih =>
    rw [ahead, ahead]
    by_cases hk : a ∈ known
    · rw [if_pos hk, if_pos (h a hk)]
      omega
    · rw [if_neg hk]
      split <;> omega

/-- A place that is opened takes its turns from those ahead. -/
theorem ahead_opened {places known : List α} {a : α} (ha : a ∈ places) (hk : a ∉ known) :
    (next a).length + 1 + ahead next (a :: known) places ≤ ahead next known places := by
  induction places with
  | nil => cases ha
  | cons b rest ih =>
    rw [ahead, ahead]
    by_cases hb : b = a
    · subst hb
      have hrest : ahead next (b :: known) rest ≤ ahead next known rest :=
        ahead_le fun c hc => List.mem_cons_of_mem b hc
      rw [if_pos List.mem_cons_self, if_neg hk]
      omega
    · have ih := ih ((List.mem_cons.1 ha).resolve_left (Ne.symm hb))
      have hsame : b ∈ a :: known ↔ b ∈ known := by simp [hb]
      simp only [hsame]
      omega

theorem ahead_nil (places : List α) :
    ahead next [] places = (places.map fun a => (next a).length).sum + places.length := by
  induction places with
  | nil => rfl
  | cons a rest ih =>
    rw [ahead, ih, if_neg List.not_mem_nil, List.map_cons, List.sum_cons, List.length_cons]
    omega

/-- Each turn takes one from what is left to try and what is still ahead together. -/
theorem walkFor_eq {places finished : List α} {visits : List (Visit α)} {turns : Nat}
    (h : left visits + ahead next (path visits ++ finished) places < turns) :
    walkFor places next turns visits finished = some (walk places next visits finished) := by
  induction turns generalizing visits finished with
  | zero => omega
  | succ turns ih =>
    match visits with
    | [] => rw [walkFor, walk]
    | (a, []) :: rest =>
      have hsame : ahead next (path rest ++ a :: finished) places ≤
          ahead next (path ((a, []) :: rest) ++ finished) places := by
        refine ahead_le fun b hb => ?_
        rw [path, List.map_cons, List.cons_append, List.mem_cons, List.mem_append] at hb
        rw [List.mem_append, List.mem_cons]
        tauto
      rw [walkFor, walk]
      apply ih
      rw [left, List.length_nil] at h
      omega
    | (a, b :: others) :: rest =>
      have hleft : left ((a, b :: others) :: rest) = left ((a, others) :: rest) + 1 := by
        show (others.length + 1) + 1 + left rest = others.length + 1 + left rest + 1
        omega
      have hpath : path ((a, b :: others) :: rest) = path ((a, others) :: rest) := rfl
      rw [hleft, hpath] at h
      rw [walkFor, walk]
      by_cases hmet : b ∈ path ((a, b :: others) :: rest)
      · rw [if_pos hmet, if_pos hmet]
      · rw [if_neg hmet, if_neg hmet]
        by_cases hopen : b ∈ places ∧ b ∉ finished
        · rw [if_pos hopen, if_pos hopen]
          have hk : b ∉ path ((a, others) :: rest) ++ finished := by
            rw [List.mem_append, not_or]
            exact ⟨hmet, hopen.2⟩
          have hturns : (next b).length + 1 +
              ahead next (b :: (path ((a, others) :: rest) ++ finished)) places ≤
                ahead next (path ((a, others) :: rest) ++ finished) places :=
            ahead_opened hopen.1 hk
          have hnew : left ((b, next b) :: (a, others) :: rest) =
              (next b).length + 1 + left ((a, others) :: rest) := rfl
          have hmore : path ((b, next b) :: (a, others) :: rest) ++ finished =
              b :: (path ((a, others) :: rest) ++ finished) := rfl
          apply ih
          rw [hnew, hmore]
          omega
        · rw [if_neg hopen, if_neg hopen]
          apply ih
          omega

/-- A walk from a root that is not finished ends within the turns of all places, and one more. -/
theorem walkFor_root {places finished : List α} {root : α} (hroot : root ∈ places)
    (hnew : root ∉ finished) {turns : Nat} (hturns : ahead next [] places < turns) :
    walkFor places next turns [(root, next root)] finished =
      some (walk places next [(root, next root)] finished) := by
  apply walkFor_eq
  have hopen : (next root).length + 1 + ahead next (root :: finished) places ≤
      ahead next finished places := ahead_opened hroot hnew
  have hall : ahead next finished places ≤ ahead next [] places := ahead_le (by simp)
  have hleft : left [(root, next root)] = (next root).length + 1 := rfl
  have hpath : path [(root, next root)] ++ finished = root :: finished := rfl
  rw [hleft, hpath]
  omega

end Search

namespace Graph
variable {g : Graph}

/-! ## Cycles of edges -/

theorem sum_matches (ids : List String) (id : String) :
    (ids.map fun n => if id == n then 1 else 0).sum = ids.count id := by
  induction ids with
  | nil => rfl
  | cons n rest ih =>
    rw [List.map_cons, List.sum_cons, ih, List.count_cons, Nat.add_comm, Bool.beq_comm]

/-- Each edge leaves one of the nodes. -/
theorem sum_outdegrees {ids : List String} {edges : List Edge} (hids : ids.Nodup)
    (hedges : ∀ e ∈ edges, e.source ∈ ids) :
    (ids.map fun n => (edges.filter (·.source == n)).length).sum = edges.length := by
  induction edges with
  | nil => simp
  | cons e rest ih =>
    have hone : (ids.map fun n => if e.source == n then 1 else 0).sum = 1 := by
      rw [sum_matches]
      exact List.count_eq_one_of_mem hids (hedges e List.mem_cons_self)
    have hcons : ∀ n, ((e :: rest).filter (·.source == n)).length =
        (if e.source == n then 1 else 0) + (rest.filter (·.source == n)).length := by
      intro n
      rw [List.filter_cons]
      split
      · rw [List.length_cons, Nat.add_comm]
      · rw [Nat.zero_add]
    simp only [hcons]
    rw [List.sum_map_add, hone, ih fun f hf => hedges f (List.mem_cons_of_mem _ hf),
      List.length_cons, Nat.add_comm]

/-- Each node takes a turn to be finished, and each edge one to be tried. -/
theorem ahead_following (g : Graph) :
    Search.ahead g.following [] g.nodeIds = g.nodes.length + g.edges.length := by
  have hsum : (g.nodeIds.map fun n => (g.following n).length).sum = g.edges.length := by
    simp only [following, List.length_map, outgoing_eq]
    exact sum_outdegrees g.nodes_distinct fun e he => (g.anchored e he).1
  have hlength : g.nodeIds.length = g.nodes.length := List.length_map ..
  rw [Search.ahead_nil, hsum, hlength, Nat.add_comm]

theorem joins_of_cycleNode? {n : String} (h : g.cycleNode? = some n) :
    TransGen g.Joins n n := by
  have hnone : Search.Downward g.following [] := trivial
  have honCycle : Search.OnCycle g.following n :=
    Search.onCycle_of_closing? g.closed_following (fun _ hb => hb) hnone h
  rwa [Search.OnCycle, leads_following] at honCycle

/-- Every walk of the search ends within one turn for each node and each edge, and one more in
which it is seen to be over; then the search tells whether there is a cycle. -/
theorem cycleNode?_finds (g : Graph) :
    (∀ root ∈ g.nodeIds, ∀ finished, root ∉ finished →
      Search.walkFor g.nodeIds g.following (g.nodes.length + g.edges.length + 1)
          [(root, g.following root)] finished =
        some (Search.walk g.nodeIds g.following [(root, g.following root)] finished)) ∧
    (g.cycleNode? = none ↔ ∀ n, ¬ TransGen g.Joins n n) ∧
    ∀ n, g.cycleNode? = some n → n ∈ g.nodeIds ∧ TransGen g.Joins n n := by
  refine ⟨fun root hroot finished hnew => ?_, cycleNode?_eq_none_iff, fun n h => ?_⟩
  · apply Search.walkFor_root hroot hnew
    rw [ahead_following]
    exact Nat.lt_succ_self _
  · have hcycle := joins_of_cycleNode? h
    obtain ⟨m, hjoins, -⟩ := TransGen.head'_iff.1 hcycle
    exact ⟨hjoins.source_mem, hcycle⟩

/-- Two nodes that lead to each other, one of them by two edges. -/
def roundabout : Graph where
  nodes := [⟨"north", {}, .agent ⟨"n", none, "n", none, none⟩, by decide⟩,
    ⟨"south", {}, .agent ⟨"s", none, "s", none, none⟩, by decide⟩]
  edges := [.plain "down" ⟨"north", none, "south", none⟩ (by decide),
    .plain "slope" ⟨"north", some "out", "south", none⟩ (by decide),
    .plain "up" ⟨"south", none, "north", none⟩ (by decide)]
  nodes_distinct := by decide
  edges_distinct := by decide
  anchored := by decide

theorem cycleNode?_roundabout :
    (("north" ∈ roundabout.nodeIds ∧ "north" ∉ ([] : List String)) ∧
      Search.walkFor roundabout.nodeIds roundabout.following 6
          [("north", roundabout.following "north")] [] =
        some (Search.walk roundabout.nodeIds roundabout.following
          [("north", roundabout.following "north")] [])) ∧
    ∃ n, roundabout.cycleNode? = some n ∧ n ∈ roundabout.nodeIds ∧
      TransGen roundabout.Joins n n := by
  obtain ⟨hends, hnone, hsome⟩ := cycleNode?_finds roundabout
  have hmem : "north" ∈ roundabout.nodeIds := by decide
  have hnew : "north" ∉ ([] : List String) := by simp
  have hdown : roundabout.Joins "north" "south" := ⟨_, .head _, rfl, rfl⟩
  have hup : roundabout.Joins "south" "north" := ⟨_, .tail _ (.tail _ (.head _)), rfl, rfl⟩
  refine ⟨⟨⟨hmem, hnew⟩, hends "north" hmem [] hnew⟩, ?_⟩
  cases hfound : roundabout.cycleNode? with
  | none => exact absurd (TransGen.single hdown |>.tail hup) (hnone.1 hfound "north")
  | some n => exact ⟨n, rfl, hsome n hfound⟩

end Graph
end WorkflowCanvas
