import WorkflowCanvas.Graph.Review
import WorkflowCanvas.Proofs.Graph.Scan
import WorkflowCanvas.Proofs.Search.Cycle

/-! What a review looks for. Main statements: the searches of a review find paths and cycles of
edges, and a review passes exactly when there is one start and one end, every step group lies on
a path between them, nothing lies on a cycle, no two edges leave or enter one node, and no agent
is on the canvas. -/
namespace WorkflowCanvas
open Relation
set_option autoImplicit false

namespace Graph
variable {g : Graph}

/-! ## Paths along edges -/

/-- An edge leads from one node to another. -/
def Joins (g : Graph) (a b : String) : Prop := ∃ e ∈ g.edges, e.source = a ∧ e.target = b

theorem Joins.source_mem {a b : String} (h : g.Joins a b) : a ∈ g.nodeIds := by
  obtain ⟨e, he, rfl, -⟩ := h
  exact (g.anchored e he).1

theorem Joins.target_mem {a b : String} (h : g.Joins a b) : b ∈ g.nodeIds := by
  obtain ⟨e, he, -, rfl⟩ := h
  exact (g.anchored e he).2

theorem leads_following (g : Graph) : Search.Leads g.following = g.Joins := by
  funext a b
  simp [Search.Leads, following, outgoing_eq, Joins, and_assoc]

theorem leads_preceding (g : Graph) : Search.Leads g.preceding = Function.swap g.Joins := by
  funext a b
  simp [Search.Leads, preceding, incoming_eq, Joins, Function.swap, and_assoc, and_comm]

theorem following_subset (g : Graph) (node : String) : g.following node ⊆ g.nodeIds := by
  intro b hb
  have h : Search.Leads g.following node b := hb
  rw [leads_following] at h
  exact h.target_mem

theorem preceding_subset (g : Graph) (node : String) : g.preceding node ⊆ g.nodeIds := by
  intro b hb
  have h : Search.Leads g.preceding node b := hb
  rw [leads_preceding] at h
  exact Joins.source_mem h

theorem closed_following (g : Graph) : Search.Closed g.following g.nodeIds :=
  .of_subset g.following_subset (List.Subset.refl _)

theorem closed_following_cons (g : Graph) (origin : String) :
    Search.Closed g.following (origin :: g.nodeIds) :=
  .of_subset g.following_subset (List.subset_cons_self origin _)

theorem closed_preceding_cons (g : Graph) (goal : String) :
    Search.Closed g.preceding (goal :: g.nodeIds) :=
  .of_subset g.preceding_subset (List.subset_cons_self goal _)

theorem mem_reachable_iff {origin n : String} :
    n ∈ g.reachable origin ↔ ReflTransGen g.Joins origin n := by
  rw [reachable, Search.mem_reach_iff List.mem_cons_self (g.closed_following_cons origin),
    leads_following]

theorem mem_reaching_iff {goal n : String} :
    n ∈ g.reaching goal ↔ ReflTransGen g.Joins n goal := by
  rw [reaching, Search.mem_reach_iff List.mem_cons_self (g.closed_preceding_cons goal),
    leads_preceding, reflTransGen_swap]

theorem cycleNode?_eq_none_iff : g.cycleNode? = none ↔ ∀ n, ¬ TransGen g.Joins n n := by
  have hn : ∀ a b, b ∈ g.following a → a ∈ g.nodeIds := by
    intro a b hb
    have h : Search.Leads g.following a b := hb
    rw [leads_following] at h
    exact h.source_mem
  rw [cycleNode?, Search.closing?_eq_none_iff g.closed_following hn]
  simp only [Search.OnCycle, leads_following]

/-! ## Branchings -/

theorem length_filter_le_one_iff {α : Type} {xs : List α} (h : xs.Nodup) (test : α → Bool) :
    (xs.filter test).length ≤ 1 ↔
      ∀ x ∈ xs, ∀ y ∈ xs, test x = true → test y = true → x = y := by
  constructor
  · intro hl x hx y hy htx hty
    have hx' : x ∈ xs.filter test := List.mem_filter.2 ⟨hx, htx⟩
    have hy' : y ∈ xs.filter test := List.mem_filter.2 ⟨hy, hty⟩
    match hf : xs.filter test, hl with
    | [], _ => rw [hf] at hx'; cases hx'
    | [z], _ =>
      rw [hf, List.mem_singleton] at hx' hy'
      rw [hx', hy']
  · intro hall
    match hf : xs.filter test with
    | [] => simp
    | [z] => simp
    | x :: y :: rest =>
      have hx : x ∈ xs.filter test := by simp [hf]
      have hy : y ∈ xs.filter test := by simp [hf]
      rw [List.mem_filter] at hx hy
      have hnodup : (x :: y :: rest).Nodup := hf ▸ h.filter test
      have heq : x = y := hall x hx.1 y hy.1 hx.2 hy.2
      simp [heq] at hnodup

/-- No two edges leave one node, and no two enter one. -/
def Unbranched (g : Graph) : Prop :=
  ∀ e ∈ g.edges, ∀ f ∈ g.edges, e.source = f.source ∨ e.target = f.target → e = f

theorem unbranched_iff_nodup :
    g.Unbranched ↔ (g.edges.map Edge.source).Nodup ∧ (g.edges.map Edge.target).Nodup := by
  constructor
  · intro h
    exact ⟨g.nodup_edges.map_on fun e he f hf hs => h e he f hf (.inl hs),
      g.nodup_edges.map_on fun e he f hf ht => h e he f hf (.inr ht)⟩
  · rintro ⟨hsources, htargets⟩ e he f hf (hs | ht)
    · exact List.inj_on_of_nodup_map hsources he hf hs
    · exact List.inj_on_of_nodup_map htargets he hf ht

theorem branchings_eq_nil_iff {node : String} :
    g.branchings node = [] ↔
      (g.edges.filter (·.source == node)).length ≤ 1 ∧
        (g.edges.filter (·.target == node)).length ≤ 1 := by
  have hflow : ∀ (count : Nat) (v : Violation),
      (if 1 < count then [v] else []) = [] ↔ count ≤ 1 := by
    intro count v
    by_cases h : 1 < count
    · simp [h]
    · simpa [h] using Nat.le_of_not_lt h
  rw [branchings, outgoing_eq, incoming_eq, List.append_eq_nil_iff, hflow, hflow]

theorem flatMap_branchings_eq_nil_iff :
    g.nodeIds.flatMap g.branchings = [] ↔ g.Unbranched := by
  simp only [List.flatMap_eq_nil_iff, branchings_eq_nil_iff,
    length_filter_le_one_iff g.nodup_edges, beq_iff_eq]
  constructor
  · intro h e he f hf hends
    rcases hends with hs | ht
    · exact (h e.source (g.anchored e he).1).1 e he f hf rfl hs.symm
    · exact (h e.target (g.anchored e he).2).2 e he f hf rfl ht.symm
  · intro h node _
    refine ⟨fun e he f hf hs ht => ?_, fun e he f hf hs ht => ?_⟩
    · exact h e he f hf (.inl (hs.trans ht.symm))
    · exact h e he f hf (.inr (hs.trans ht.symm))

/-- Two edges on one handle leave or enter one node. -/
theorem Unbranched.sharedHandles_eq_nil (h : g.Unbranched) : g.sharedHandles = [] := by
  have huse : ∀ key, (g.edges.filter (·.uses key)).length ≤ 1 := by
    intro key
    rw [length_filter_le_one_iff g.nodup_edges]
    intro e he f hf hue huf
    simp only [Edge.uses, Bool.or_eq_true, beq_iff_eq] at hue huf
    apply h e he f hf
    rcases hue with hue | hue <;> rcases huf with huf | huf
    · exact .inl (congrArg HandleKey.node (hue.trans huf.symm))
    · exact absurd (hue.trans huf.symm) (e.sourceKey_ne_targetKey f)
    · exact absurd (huf.trans hue.symm) (f.sourceKey_ne_targetKey e)
    · exact .inr (congrArg HandleKey.node (hue.trans huf.symm))
  rw [sharedHandles, List.map_eq_nil_iff, List.filter_eq_nil_iff]
  rintro ⟨key, ids⟩ hm
  have hids := huse key
  rw [← List.length_map, ← g.ids_of_mem_usage hm] at hids
  simpa using hids

/-! ## Ends -/

theorem countViolations_eq_nil_iff {missing : Violation} {several : Nat → Violation}
    {count : Nat} : countViolations missing several count = [] ↔ count = 1 := by
  match count with
  | 0 => simp [countViolations]
  | 1 => simp [countViolations]
  | n + 2 => simp [countViolations]

theorem mem_countViolations {missing v : Violation} {several : Nat → Violation} {count : Nat}
    (h : v ∈ countViolations missing several count) : v = missing ∨ v = several count := by
  match count with
  | 0 => exact .inl (List.mem_singleton.1 h)
  | 1 => cases h
  | n + 2 => exact .inr (List.mem_singleton.1 h)

theorem only?_eq_some {α : Type} {xs : List α} {a : α} (h : xs = [a]) : only? xs = some a := by
  rw [h]
  rfl

theorem mem_of_nodesOfKind {kind : NodeKind} {n : Node} (h : g.nodesOfKind kind = [n]) :
    n ∈ g.nodes ∧ n.kind = kind := by
  have hm : n ∈ g.nodesOfKind kind := by simp [h]
  simpa [nodesOfKind] using hm

/-! ## Step groups -/

theorem groupsWhere_eq_nil_iff {test : String → Bool} :
    g.groupsWhere test = [] ↔ ∀ n ∈ g.nodes, n.kind = .stepGroup → ¬ test n.id = true := by
  simp only [groupsWhere, nodesOfKind, List.map_eq_nil_iff, List.filter_eq_nil_iff,
    List.mem_filter, beq_iff_eq, and_imp]

theorem disconnectedFrom_eq_nil_iff {start : Node} :
    g.disconnectedFrom start = [] ↔
      ∀ n ∈ g.nodes, n.kind = .stepGroup → ReflTransGen g.Joins start.id n.id := by
  rw [disconnectedFrom, groupsWhere_eq_nil_iff]
  simp only [Bool.not_eq_true', Bool.not_eq_false, List.contains_iff_mem, mem_reachable_iff]

theorem deadEndsBetween_eq_nil_iff {start finish : Node} :
    g.deadEndsBetween start finish = [] ↔
      ∀ n ∈ g.nodes, n.kind = .stepGroup → ReflTransGen g.Joins start.id n.id →
        ReflTransGen g.Joins n.id finish.id := by
  rw [deadEndsBetween, groupsWhere_eq_nil_iff]
  simp only [Bool.and_eq_true, Bool.not_eq_true', not_and, Bool.not_eq_false,
    List.contains_iff_mem, mem_reachable_iff, mem_reaching_iff]

theorem pathViolations_eq_nil_iff {start finish : Node} :
    g.pathViolations start finish = [] ↔
      ReflTransGen g.Joins start.id finish.id ∧
        ∀ n ∈ g.nodes, n.kind = .stepGroup →
          ReflTransGen g.Joins start.id n.id ∧ ReflTransGen g.Joins n.id finish.id := by
  have hlists : g.pathViolations start finish = [] ↔
      finish.id ∈ g.reachable start.id ∧ g.disconnectedFrom start = [] ∧
        g.deadEndsBetween start finish = [] := by
    simp only [pathViolations, List.append_eq_nil_iff, and_assoc]
    simp
  rw [hlists, mem_reachable_iff, disconnectedFrom_eq_nil_iff, deadEndsBetween_eq_nil_iff]
  constructor
  · rintro ⟨hj, hd, he⟩
    exact ⟨hj, fun n hn hk => ⟨hd n hn hk, he n hn hk (hd n hn hk)⟩⟩
  · rintro ⟨hj, hall⟩
    exact ⟨hj, fun n hn hk => (hall n hn hk).1, fun n hn hk _ => (hall n hn hk).2⟩

/-! ## Agents -/

theorem looseAgents_eq_nil_iff : g.looseAgents = [] ↔ ∀ n ∈ g.nodes, n.kind ≠ .agent := by
  rw [looseAgents, List.filterMap_eq_nil_iff]
  refine forall₂_congr fun n _ => ?_
  cases hp : n.payload <;> simp [Node.kind, Payload.kind, hp]

/-! ## The review -/

/-- What a graph has to be for its review to find no violation. -/
structure Regular (g : Graph) (start finish : Node) : Prop where
  starts : g.nodesOfKind .start = [start]
  finishes : g.nodesOfKind .finish = [finish]
  joined : ReflTransGen g.Joins start.id finish.id
  between : ∀ n ∈ g.nodes, n.kind = .stepGroup →
    ReflTransGen g.Joins start.id n.id ∧ ReflTransGen g.Joins n.id finish.id
  acyclic : ∀ n, ¬ TransGen g.Joins n n
  unbranched : g.Unbranched

/-- What a graph has to be for its review to pass. -/
structure Sound (g : Graph) (start finish : Node) : Prop extends Regular g start finish where
  organized : ∀ n ∈ g.nodes, n.kind ≠ .agent

theorem terminals?_eq_some {start finish : Node} (hs : g.nodesOfKind .start = [start])
    (hf : g.nodesOfKind .finish = [finish]) : g.terminals? = some (start, finish) := by
  rw [terminals?, start?, finish?, only?_eq_some hs, only?_eq_some hf]
  rfl

theorem violations_eq_nil_iff {start finish : Node} (hs : g.nodesOfKind .start = [start])
    (hf : g.nodesOfKind .finish = [finish]) :
    g.violations = [] ↔ g.pathViolations start finish = [] ∧
      (∀ n, ¬ TransGen g.Joins n n) ∧ g.Unbranched := by
  have hcycle : (g.cycleNode?.map Violation.cycle).toList = [] ↔ g.cycleNode? = none := by
    cases g.cycleNode? <;> simp
  simp only [violations, terminals?_eq_some hs hf, List.append_eq_nil_iff, hcycle,
    cycleNode?_eq_none_iff, flatMap_branchings_eq_nil_iff, hs, hf, List.length_singleton,
    countViolations, true_and, and_assoc]
  constructor
  · rintro ⟨-, hp, hc, hu⟩
    exact ⟨hp, hc, hu⟩
  · rintro ⟨hp, hc, hu⟩
    exact ⟨hu.sharedHandles_eq_nil, hp, hc, hu⟩

theorem violations_eq_nil_iff_regular :
    g.violations = [] ↔ ∃ start finish, g.Regular start finish := by
  constructor
  · intro hv
    have hcounts := hv
    simp only [violations, List.append_eq_nil_iff, countViolations_eq_nil_iff,
      List.length_eq_one_iff] at hcounts
    obtain ⟨⟨⟨⟨⟨⟨start, hs⟩, finish, hf⟩, -⟩, -⟩, -⟩, -⟩ := hcounts
    obtain ⟨hp, hc, hu⟩ := (violations_eq_nil_iff hs hf).1 hv
    obtain ⟨hj, hb⟩ := pathViolations_eq_nil_iff.1 hp
    exact ⟨start, finish, hs, hf, hj, hb, hc, hu⟩
  · rintro ⟨start, finish, hs, hf, hj, hb, hc, hu⟩
    have hp := pathViolations_eq_nil_iff.2 ⟨hj, hb⟩
    exact (violations_eq_nil_iff hs hf).2 ⟨hp, hc, hu⟩

theorem passes_iff : g.review.passes = true ↔ g.violations = [] ∧ g.looseAgents = [] := by
  simp [Review.passes, review]

theorem passes_iff_sound : g.review.passes = true ↔ ∃ start finish, g.Sound start finish := by
  rw [passes_iff, violations_eq_nil_iff_regular, looseAgents_eq_nil_iff]
  constructor
  · rintro ⟨⟨start, finish, h⟩, ha⟩
    exact ⟨start, finish, h, ha⟩
  · rintro ⟨start, finish, h⟩
    exact ⟨⟨start, finish, h.toRegular⟩, h.organized⟩

end Graph
end WorkflowCanvas
